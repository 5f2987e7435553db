import Vendoring.Build
import Vendoring.Proofs.Configuration.Registered
import Vendoring.Proofs.Packaging.Stages
import Vendoring.Proofs.Publication.Standard

/-!
# The stages of a build

A build checks its settings, imports the POM, registers the vendored dependencies and reads them
back, loads the index and packages the module.  Once the settings were accepted, registration cannot
fail, and what is read back does not depend on the POM: it is `ShadeSettings.recordedSet`, the
coordinates of the settings, each of them once (`installShaded_of_importPom`).  So what is packaged
is known before the build starts (`run_eq_stages`).
-/

namespace Vendoring

/-- The set of the vendored dependencies as a build records it, each of them once. -/
def ShadeSettings.recordedSet (s : ShadeSettings) : ShadedSet :=
  ⟨ConfigurationName.ofText s.configuration, s.dependencies.eraseDups⟩

namespace Settings

variable {s : Settings}

/-- Is there a key that is not blank? -/
def Signed (s : Settings) : Prop :=
  ∃ c, s.signing = some c ∧ Text.isBlankText c.keyId = false

theorem signed_iff : s.Signed ↔ SigningStrategy.resolve s.signing = .signShaded :=
  SigningStrategy.resolve_eq_signShaded_iff.symm

instance (s : Settings) : Decidable s.Signed := decidable_of_iff' _ signed_iff

/-- The publication that is planned for the module, unless it is refused. -/
def plan (s : Settings) : PublicationPlan :=
  .draft (Variant.standard s.plain) s.plain (Packaging.shadedArtifact s.plain)
    (SigningStrategy.resolve s.signing) ⟨s.shade.shadedClassifier, s.shade.thinClassifier⟩

/-- The publication is refused if the shaded artifact is signed and has an empty classifier. -/
theorem planOf_packagingInput (s : Settings) (shaded : ShadedSet) :
    Packaging.planOf (s.packagingInput shaded) =
      if s.Signed ∧ s.shade.shadedClassifier = "" then .error ⟨"apiElements", 2⟩
      else .ok s.plan := by
  simp only [signed_iff]
  exact planPublication_standard _ _ rfl rfl

/-- Accepted settings name an artifact and its version, keep the name of the shaded set apart from
those of the build, and move packages to packages. -/
theorem validate_eq_ok_iff :
    s.validate = .ok () ↔
      Text.isBlankText s.artifact.baseName = false ∧ Text.isBlankText s.artifact.version = false ∧
      s.shade.shadedSet.isReserved = false ∧ Packaging.checkRules s.shade.relocations = .ok () := by
  rw [validate, ShadedSet.validate]
  cases Text.isBlankText s.artifact.baseName <;> cases Text.isBlankText s.artifact.version <;>
    cases s.shade.shadedSet.isReserved <;> simp [mapError_eq_ok_iff]

end Settings

namespace Build

variable {fs : FileSystem} {s : Settings} {root : String} {p : Subproject}
  {imported : Option Pom.ImportReport} {outcome : Outcome}

/-- A new subproject lists nothing under a name of one's own, whether a POM was imported or not. -/
theorem dependencies_of_importPom (h : importPom fs s root (Subproject.new s.subproject) =
    .ok (p, imported)) {name : ConfigurationName} (hname : name.isCustom = true) :
    p.container.dependencies name = [] := by
  obtain ⟨present, -, h⟩ := bind_eq_ok_iff.1 h
  cases present with
  | false =>
    cases h
    rfl
  | true =>
    obtain ⟨⟨q, report⟩, hq, h⟩ := bind_eq_ok_iff.1 h
    cases h
    obtain ⟨document, -, rfl, -⟩ := Subproject.importPom_eq_ok_iff.1 (mapError_eq_ok_iff.1 hq)
    exact Pom.dependencies_importInto_of_isCustom document _ hname

/-- **What is read back are the vendored dependencies of the settings**, each of them once. -/
theorem installShaded_of_importPom (hreserved : s.shade.shadedSet.isReserved = false)
    (h : importPom fs s root (Subproject.new s.subproject) = .ok (p, imported)) :
    ∃ q, p.installShaded s.shade.shadedSet = .ok (q, s.shade.recordedSet) := by
  have hnew := dependencies_of_importPom h (ShadedSet.isCustom_name hreserved)
  rw [← Container.dependencies_unlock p.container s.shade.shadedSet.name] at hnew
  have hlisted := Container.dependencies_registerAll_of_eq_nil s.shade.shadedSet.dependencies hnew
  have hinstall := p.installShaded_of_isReserved_eq_false hreserved
  simp only [ShadedSet.ofContainer, hlisted] at hinstall
  exact ⟨_, hinstall⟩

/-- **A build whose settings were accepted** imports the POM, loads the index, and packages what the
settings say. -/
theorem run_eq_stages (hvalid : s.validate = .ok ()) :
    run fs s root = (do
      let (_, imported) ← importPom fs s root (Subproject.new s.subproject)
      let index ← loadIndex fs s root
      let packaging ←
        (Packaging.run index.resolver (s.packagingInput s.shade.recordedSet)).mapError .packaging
      return { imported, packaging }) := by
  obtain ⟨-, -, hreserved, -⟩ := Settings.validate_eq_ok_iff.1 hvalid
  rw [run, hvalid]
  cases himport : importPom fs s root (Subproject.new s.subproject) with
  | error e => rfl
  | ok result =>
    obtain ⟨p, imported⟩ := result
    obtain ⟨q, hq⟩ := installShaded_of_importPom hreserved himport
    simp only [Except.mapError, bind, Except.bind, hq]

/-- A build succeeds if the settings are accepted and its stages succeed. -/
theorem run_eq_ok_iff :
    run fs s root = .ok outcome ↔
      s.validate = .ok () ∧
      (∃ p, importPom fs s root (Subproject.new s.subproject) = .ok (p, outcome.imported)) ∧
      ∃ index, loadIndex fs s root = .ok index ∧
        Packaging.run index.resolver (s.packagingInput s.shade.recordedSet) =
          .ok outcome.packaging := by
  constructor
  · intro h
    have hvalid : s.validate = .ok () := by
      obtain ⟨⟨⟩, hvalid, -⟩ := bind_eq_ok_iff.1 h
      exact mapError_eq_ok_iff.1 hvalid
    rw [run_eq_stages hvalid] at h
    obtain ⟨⟨p, imported⟩, himport, h⟩ := bind_eq_ok_iff.1 h
    obtain ⟨index, hindex, h⟩ := bind_eq_ok_iff.1 h
    obtain ⟨packaging, hpackaging, h⟩ := bind_eq_ok_iff.1 h
    cases h
    exact ⟨hvalid, ⟨p, himport⟩, index, hindex, mapError_eq_ok_iff.1 hpackaging⟩
  · rintro ⟨hvalid, ⟨p, himport⟩, index, hindex, hpackaging⟩
    rw [run_eq_stages hvalid]
    refine bind_eq_ok_iff.2 ⟨(p, outcome.imported), himport, ?_⟩
    refine bind_eq_ok_iff.2 ⟨index, hindex, ?_⟩
    exact bind_eq_ok_iff.2 ⟨outcome.packaging, mapError_eq_ok_iff.2 hpackaging, rfl⟩

/-- A build that succeeds publishes what its settings say, and both artifacts do not want to be the
default one. -/
theorem plan_of_run (h : run fs s root = .ok outcome) :
    outcome.packaging.plan = s.plan ∧ ¬ (s.Signed ∧ s.shade.shadedClassifier = "") := by
  obtain ⟨-, -, index, -, hpackaging⟩ := run_eq_ok_iff.1 h
  obtain ⟨-, resolved, -, plan, hplan, houtcome⟩ := Packaging.run_eq_ok_iff.1 hpackaging
  rw [Settings.planOf_packagingInput] at hplan
  split at hplan
  · cases hplan
  · next hnot =>
    cases hplan
    exact ⟨congrArg Packaging.Outcome.plan houtcome, hnot⟩

end Build

end Vendoring
