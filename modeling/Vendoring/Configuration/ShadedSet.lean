import Vendoring.Configuration.Container
import Vendoring.Text.Blank

/-!
# Shaded sets

The dependencies that are vendored have a configuration of their own, which takes no part in
dependency locking.  It cannot be one of the build's configurations.
-/

namespace Vendoring

/-- The dependencies that are vendored, and the configuration that holds nothing else. -/
structure ShadedSet where
  name : ConfigurationName
  dependencies : List Coordinate
  deriving DecidableEq

namespace ShadedSet

/-- Is the name blank, or spelt like one of the build's own? -/
def isReserved (s : ShadedSet) : Bool :=
  Text.isBlankText s.name.text || !(ConfigurationName.ofText s.name.text).isCustom

/-- The set that a container holds under a name. -/
def ofContainer (c : Container) (name : ConfigurationName) : ShadedSet :=
  ⟨name, c.dependencies name⟩

/-- A name that is not reserved is read from its text as a name of one's own. -/
theorem isCustom_ofText {s : ShadedSet} (h : s.isReserved = false) :
    (ConfigurationName.ofText s.name.text).isCustom = true := by
  rw [isReserved, Bool.or_eq_false_iff, Bool.not_eq_false'] at h
  exact h.2

end ShadedSet

end Vendoring
