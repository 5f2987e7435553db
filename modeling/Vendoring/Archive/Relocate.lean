import Vendoring.Archive.Minimize

/-!
# Relocation

A relocation rule moves the classes of a package under another name.  Applied to an archive, rules
rename its entries, the references in them and the services they describe, so that the classes
cannot be mistaken for another copy of the same library.  The first rule that matches a name
decides; a package covers a name only if it ends where a part of the name ends.
-/

namespace Vendoring

/-- Moves what is under one dotted package name to another. -/
structure RelocationRule where
  pattern : String
  destination : String
  deriving DecidableEq

namespace RelocationRule

/-- Is the text a dotted name without empty parts, slashes and spaces? -/
def isPackageName (s : String) : Bool :=
  (s.toList.splitOn '.').all fun part =>
    !part.isEmpty && !part.contains '/' && !part.contains ' '

/-- The two names of a rule. -/
inductive Side
  | pattern
  | destination
  deriving DecidableEq

/-- How a side is called. -/
def Side.text : Side → String
  | pattern => "pattern"
  | destination => "destination"

/-- The first name of the rule that is no package name. -/
def invalidSide? (r : RelocationRule) : Option (Side × String) :=
  if !isPackageName r.pattern then some (.pattern, r.pattern)
  else if !isPackageName r.destination then some (.destination, r.destination)
  else none

/-- Moves a name whose parts stand between the given separators, if the rule covers it. -/
def move? (r : RelocationRule) (separator : Char) (name : String) : Option String :=
  let pattern := respell '.' separator r.pattern
  let destination := respell '.' separator r.destination
  match ArchiveEntry.after? pattern name with
  | none => none
  | some rest =>
    match rest.toList with
    | [] => some destination
    | c :: _ => if c = separator then some (destination ++ rest) else none

end RelocationRule

/-- Moves a name by the first rule that covers it. -/
def relocated? (rules : List RelocationRule) (separator : Char) (name : String) :
    Option String :=
  rules.findSome? (·.move? separator name)

/-- The name after relocation, which is the old one if no rule covers it. -/
def relocated (rules : List RelocationRule) (separator : Char) (name : String) : String :=
  (relocated? rules separator name).getD name

namespace ArchiveEntry

/-- The path of an entry after relocation. -/
def target (rules : List RelocationRule) (e : ArchiveEntry) : String :=
  match e.serviceName? with
  | some service => servicesDirectory ++ relocated rules '.' service
  | none =>
    if (after? metaDirectory e.path).isSome then e.path else relocated rules '/' e.path

/-- An entry after relocation. -/
def relocate (rules : List RelocationRule) (e : ArchiveEntry) : ArchiveEntry :=
  let moved :=
    { e with
      path := e.target rules
      references := e.references.map (relocated rules '/') }
  if e.serviceName?.isSome then moved.withLines (e.textLines.map (relocated rules '.')) else moved

end ArchiveEntry

namespace Archive

/-- Adds a relocated entry that came from the path `old`, unless its path is taken, and counts it
if it moved. -/
def place (state : Archive × Nat) (old : String) (m : MergedEntry) : Archive × Nat :=
  let (a, moved) := state
  if a.contains m.path then state
  else (a.insert m, if m.path = old then moved else moved + 1)

/-- The archive after relocation, and the number of entries in it that moved.  Of several entries
that come to the same path the project's own goes first, then the one with the smallest old
path. -/
def relocate (rules : List RelocationRule) (a : Archive) : Archive × Nat :=
  if rules.isEmpty then (a, 0)
  else
    let (own, others) := a.rows.partition MergedEntry.isOwn
    (own ++ others).foldl
      (fun state m => place state m.path { m with entry := m.entry.relocate rules })
      (Table.empty MergedEntry.path, 0)

end Archive

end Vendoring
