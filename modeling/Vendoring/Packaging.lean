import Vendoring.Archive.Index
import Vendoring.Archive.Merge
import Vendoring.Archive.Minimize
import Vendoring.Archive.Relocate
import Vendoring.Configuration.ShadedSet
import Vendoring.Files.FileSystem
import Vendoring.InPlace
import Vendoring.Publication.Plan

/-!
# Packaging

The shaded artifact of a module is made of the module's own entries and those of its vendored
dependencies: they are merged, minimized and relocated, and the publication of the result is
planned.
-/

namespace Vendoring

namespace Packaging

/-- The reasons for which packaging is refused. -/
inductive Fault
  | unresolved (coordinate : String)
  | conflict (cause : VariantConflict)
  | invalidRule (side : RelocationRule.Side) (value : String)
  | reservedName (name : String)
  | badIndex (path : String) (cause : Json.Error)
  | unreadable (path : String) (cause : FileFault)

namespace Fault

/-- Why a coordinate is not resolved. -/
def unresolvedReason : String := "artifact not found"

/-- What is wrong with one side of a relocation rule. -/
def ruleComplaint (side : RelocationRule.Side) (value : String) : String :=
  side.text ++ " '" ++ value ++ "' is not a package name"

/-- Why packaging is refused, in words. -/
def message : Fault → String
  | unresolved coordinate =>
    "Failed to resolve '" ++ coordinate ++ "' in shaded configuration: " ++ unresolvedReason
  | conflict cause =>
    "Outgoing variant '" ++ cause.variant
      ++ "' must expose exactly one default-classifier artifact, found " ++ toString cause.count
  | invalidRule side value => "Invalid relocation rule: " ++ ruleComplaint side value
  | reservedName name =>
    "Shaded configuration cannot reuse the build configuration '" ++ name ++ "'"
  | badIndex path cause =>
    "Failed to parse artifact index '" ++ path ++ "': " ++ cause.message
  | unreadable path cause => "I/O error reading '" ++ path ++ "': " ++ cause.message

end Fault

/-- Gives the entries of an artifact, or fails. -/
abbrev Resolver : Type := Coordinate → Except Fault ResolvedArtifact

/-- What is needed to package a module. -/
structure Input where
  shaded : ShadedSet
  projectEntries : List ArchiveEntry := []
  relocations : List RelocationRule := []
  minimize : Bool := true
  /-- Dotted names of what survives minimization. -/
  keep : List String := []
  plain : Artifact
  variants : List Variant := Variant.standard plain
  classifiers : ClassifierPolicy := {}
  signing : Option SigningCredential := none

/-- What came of packaging a module. -/
structure Outcome where
  entries : List ArchiveEntry
  removedByMinimize : Nat
  relocated : Nat
  plan : PublicationPlan
  deriving DecidableEq

/-- The entry at the given path. -/
def Outcome.entry? (o : Outcome) (path : String) : Option ArchiveEntry :=
  o.entries.find? (·.path = path)

/-- Accepts rules whose names are package names. -/
def checkRules (rules : List RelocationRule) : Except Fault Unit :=
  match rules.findSome? RelocationRule.invalidSide? with
  | some (side, value) => .error (.invalidRule side value)
  | none => .ok ()

/-- The shaded artifact that goes with a plain one. -/
def shadedArtifact (plain : Artifact) : Artifact :=
  { kind := .shaded, baseName := plain.baseName, version := plain.version }

/-- The archive of a module with its resolved dependencies, the number of entries that minimization
removed and the number of entries that moved. -/
def assemble (input : Input) (resolved : List ResolvedArtifact) : Archive × Nat × Nat :=
  let merged := Archive.merge input.projectEntries resolved
  let (minimized, removed) :=
    if input.minimize then merged.minimize input.keep else (merged, 0)
  let (final, moved) := minimized.relocate input.relocations
  (final, removed, moved)

/-- Packages a module. -/
def run (resolve : Resolver) (input : Input) : Except Fault Outcome := do
  checkRules input.relocations
  let resolved ← input.shaded.dependencies.mapM resolve
  let (archive, removed, moved) := assemble input resolved
  let plan ← (planPublication input.variants input.plain (shadedArtifact input.plain)
    (SigningStrategy.resolve input.signing) input.classifiers).mapError .conflict
  return { entries := archive.entries, removedByMinimize := removed, relocated := moved, plan }

end Packaging

namespace ShadedSet

/-- Accepts a set whose name is not reserved. -/
def validate (s : ShadedSet) : Except Packaging.Fault Unit :=
  if s.isReserved then .error (.reservedName s.name.text) else .ok ()

/-- Registers the set in its configuration, which is taken out of dependency locking, once the name
of the set was accepted. -/
def installInPlace (s : ShadedSet) : EStateM Packaging.Fault Container Unit := do
  ofExcept s.validate
  modify (·.unlock s.name)
  modify (·.registerAll s.name s.dependencies)

/-- The container in which the set is registered. -/
def install (s : ShadedSet) (c : Container) : Except Packaging.Fault Container :=
  (InPlace.settled s.installInPlace c).map Prod.fst

/-- The set is refused before anything is done to the container. -/
theorem run_installInPlace (s : ShadedSet) (c : Container) :
    s.installInPlace.run c =
      if s.isReserved then .error (.reservedName s.name.text) c
      else .ok () ((c.unlock s.name).registerAll s.name s.dependencies) := by
  unfold installInPlace validate
  cases s.isReserved <;> rfl

end ShadedSet

namespace ArtifactIndex

/-- Resolves coordinates by looking them up. -/
def resolver (index : ArtifactIndex) : Packaging.Resolver := fun k =>
  match index.find? k with
  | some entries => .ok ⟨k, entries⟩
  | none => .error (.unresolved k.text)

/-- Reads the index in a file. -/
def load (fs : FileSystem) (path : String) : Except Packaging.Fault ArtifactIndex :=
  match fs.readText path with
  | .error e => .error (.unreadable path e)
  | .ok s => (parse s).mapError (.badIndex path)

end ArtifactIndex

end Vendoring
