/-!
# Paths

Paths are texts whose components stand between slashes.  They are joined without being
normalized, so that a message can show a path as it was put together.
-/

namespace Vendoring.Path

/-- Does the path begin at the root of the file system? -/
def isAbsolute (path : String) : Bool := path.toList.head? = some '/'

/-- A path below another one: an absolute path stands for itself, and a slash is put between the
two unless the first is empty or ends in one. -/
def join (base path : String) : String :=
  if isAbsolute path || base.isEmpty then path
  else if base.toList.getLast? = some '/' then base ++ path
  else base ++ "/" ++ path

end Vendoring.Path
