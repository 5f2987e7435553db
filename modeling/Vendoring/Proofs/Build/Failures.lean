import Vendoring.Proofs.Build.Stages

/-!
# How a build can fail

Settings that were accepted are never refused later on.  What can still go wrong is the POM, the
index, a coordinate that the index lacks, and one thing that the settings alone decide: a shaded
artifact that is signed and has an empty classifier, so that both artifacts want to be the default
one.  `run_of_validate` says which of these it is.
-/

namespace Vendoring.Build

variable {fs : FileSystem} {s : Settings} {root : String} {p : Subproject}
  {imported : Option Pom.ImportReport} {index : ArtifactIndex} {e : Fault}

/-- Is the fault one of those that settings are refused for? -/
def Fault.isRefusal : Fault → Bool
  | incomplete _ => true
  | packaging (.invalidRule ..) => true
  | packaging (.reservedName _) => true
  | _ => false

/-! ## The faults of the stages -/

/-- An import fails for the sake of the POM. -/
theorem isRefusal_of_importPom (h : importPom fs s root p = .error e) : e.isRefusal = false := by
  rcases bind_eq_error_iff.1 h with hpresent | ⟨present, -, h⟩
  · rw [hasPom] at hpresent
    split at hpresent
    · cases hpresent
    · obtain ⟨cause, -, rfl⟩ := mapError_eq_error_iff.1 hpresent
      rfl
  cases present with
  | false => cases h
  | true =>
    rcases bind_eq_error_iff.1 h with hread | ⟨result, -, h⟩
    · obtain ⟨cause, -, rfl⟩ := mapError_eq_error_iff.1 hread
      rfl
    · cases h

/-- An index is not loaded for the sake of its file. -/
theorem isRefusal_of_loadIndex (h : loadIndex fs s root = .error e) : e.isRefusal = false := by
  rw [loadIndex] at h
  cases hpath : s.indexPath with
  | none =>
    rw [hpath] at h
    cases h
  | some path =>
    rw [hpath] at h
    obtain ⟨cause, hload, rfl⟩ := mapError_eq_error_iff.1 h
    rw [ArtifactIndex.load] at hload
    split at hload
    · cases hload
      rfl
    · obtain ⟨cause', -, rfl⟩ := mapError_eq_error_iff.1 hload
      rfl

/-- **How packaging ends.**  It names the first of the vendored dependencies that the index lacks;
if there is none, it refuses two default artifacts, and otherwise succeeds. -/
theorem packaging_of_validate (hvalid : s.validate = .ok ()) (index : ArtifactIndex) :
    Packaging.run index.resolver (s.packagingInput s.shade.recordedSet) =
      match s.shade.dependencies.find? index.lacks with
      | some k => .error (.unresolved k.text)
      | none =>
        if s.Signed ∧ s.shade.shadedClassifier = "" then .error (.conflict ⟨"apiElements", 2⟩)
        else
          .ok (Packaging.outcomeOf (s.packagingInput s.shade.recordedSet)
            (s.shade.dependencies.eraseDups.map fun k => ⟨k, (index.find? k).getD []⟩) s.plan) := by
  obtain ⟨-, -, -, hrules⟩ := Settings.validate_eq_ok_iff.1 hvalid
  have hrules' : Packaging.checkRules (s.packagingInput s.shade.recordedSet).relocations = .ok () :=
    hrules
  have hdependencies : (s.packagingInput s.shade.recordedSet).shaded.dependencies =
      s.shade.dependencies.eraseDups := rfl
  rw [Packaging.run_eq_stages, hrules', hdependencies, ArtifactIndex.mapM_resolver,
    find?_eraseDups, Settings.planOf_packagingInput]
  cases s.shade.dependencies.find? index.lacks with
  | some k => rfl
  | none =>
    dsimp only
    split
    · rfl
    · rfl

/-- A build that has its POM and its index ends as packaging does. -/
theorem run_of_loaded (hvalid : s.validate = .ok ())
    (himport : importPom fs s root (Subproject.new s.subproject) = .ok (p, imported))
    (hindex : loadIndex fs s root = .ok index) :
    run fs s root =
      ((Packaging.run index.resolver (s.packagingInput s.shade.recordedSet)).mapError
        .packaging).map fun packaging => { imported, packaging } := by
  rw [run_eq_stages hvalid, himport, hindex]
  simp only [bind, Except.bind]
  cases Packaging.run index.resolver (s.packagingInput s.shade.recordedSet) with
  | error cause => rfl
  | ok packaging => rfl

/-- Settings that were accepted are not refused later on. -/
theorem isRefusal_of_run (hvalid : s.validate = .ok ()) (h : run fs s root = .error e) :
    e.isRefusal = false := by
  rw [run_eq_stages hvalid] at h
  rcases bind_eq_error_iff.1 h with himport | ⟨⟨p, imported⟩, -, h⟩
  · exact isRefusal_of_importPom himport
  rcases bind_eq_error_iff.1 h with hindex | ⟨index, -, h⟩
  · exact isRefusal_of_loadIndex hindex
  rcases bind_eq_error_iff.1 h with hpackaging | ⟨packaging, -, h⟩
  · obtain ⟨cause, hcause, rfl⟩ := mapError_eq_error_iff.1 hpackaging
    rw [packaging_of_validate hvalid] at hcause
    split at hcause
    · cases hcause
      rfl
    · split at hcause
      · cases hcause
        rfl
      · cases hcause
  · cases h

/-- **What becomes of accepted settings.**  They are never refused later on.  If the POM is imported
and the index loaded, the build fails at the first vendored dependency that the index lacks; if it
lacks none, the build is refused where the shaded artifact is signed and has an empty classifier,
and succeeds everywhere else. -/
theorem run_of_validate (fs : FileSystem) (root : String) (hvalid : s.validate = .ok ()) :
    (∀ e, run fs s root = .error e → e.isRefusal = false) ∧
    ∀ p imported index,
      importPom fs s root (Subproject.new s.subproject) = .ok (p, imported) →
      loadIndex fs s root = .ok index →
      (∀ k, s.shade.dependencies.find? index.lacks = some k →
        run fs s root = .error (.packaging (.unresolved k.text))) ∧
      ((∀ k ∈ s.shade.dependencies, (index.find? k).isSome = true) →
        (s.Signed ∧ s.shade.shadedClassifier = "" →
          run fs s root = .error (.packaging (.conflict ⟨"apiElements", 2⟩))) ∧
        (¬ (s.Signed ∧ s.shade.shadedClassifier = "") →
          ∃ outcome, run fs s root = .ok outcome)) := by
  refine ⟨fun e h => isRefusal_of_run hvalid h, fun p imported index himport hindex => ?_⟩
  rw [run_of_loaded hvalid himport hindex, packaging_of_validate hvalid]
  constructor
  · intro k hk
    rw [hk]
    rfl
  · intro hall
    have hnone : s.shade.dependencies.find? index.lacks = none := by
      rw [List.find?_eq_none]
      intro k hk
      obtain ⟨entries, hentries⟩ := Option.isSome_iff_exists.1 (hall k hk)
      simp [ArtifactIndex.lacks, hentries]
    rw [hnone]
    constructor
    · intro hboth
      simp only [if_pos hboth]
      rfl
    · intro hnot
      simp only [if_neg hnot]
      exact ⟨_, rfl⟩

/-- The settings of a module that is signed, with what is said about vendored dependencies. -/
def signedApp (shade : ShadeSettings) : Settings where
  shade := shade
  artifact := ⟨"app", "1"⟩
  signing := some ⟨"key"⟩

/-- With no files at all, a module is packaged if it vendors nothing and has a classifier. -/
theorem run_of_signedApp :
    (∃ outcome, run .empty (signedApp {}) "." = .ok outcome) ∧
    run .empty (signedApp { shadedClassifier := "" }) "." =
      .error (.packaging (.conflict ⟨"apiElements", 2⟩)) ∧
    run .empty (signedApp { dependencies := [⟨"org.lib", "lib", none⟩] }) "." =
      .error (.packaging (.unresolved "org.lib:lib")) := by
  have hcustomary : (signedApp {}).validate = .ok () := rfl
  have hunnamed : (signedApp { shadedClassifier := "" }).validate = .ok () := rfl
  have hmissing : (signedApp { dependencies := [⟨"org.lib", "lib", none⟩] }).validate = .ok () :=
    rfl
  refine ⟨?_, ?_, ?_⟩
  · obtain ⟨-, hrun⟩ := run_of_validate .empty "." hcustomary
    refine ((hrun _ none .empty rfl rfl).2 ?_).2 ?_
    · decide
    · decide
  · obtain ⟨-, hrun⟩ := run_of_validate .empty "." hunnamed
    refine ((hrun _ none .empty rfl rfl).2 ?_).1 ?_
    · decide
    · decide
  · obtain ⟨-, hrun⟩ := run_of_validate .empty "." hmissing
    exact (hrun _ none .empty rfl rfl).1 _ rfl

end Vendoring.Build
