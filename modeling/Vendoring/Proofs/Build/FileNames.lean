import Vendoring.Proofs.Build.Stages

/-!
# The files that a build publishes

A build makes two files, and one of them gets a classifier that tells it from the other.  An empty
classifier tells nothing.  A build that signs is refused then, since the default artifacts of its
variants are counted; a build that does not sign withdraws the plain artifact from the variants, so
that nothing is counted, and gives both files the same name.
-/

namespace Vendoring.Build

variable {fs : FileSystem} {s : Settings} {root : String} {outcome : Outcome}

/-- The classifier of the artifact that is not the default one is missing only where nothing is
signed. -/
theorem other_ne_empty_iff (h : ¬ (s.Signed ∧ s.shade.shadedClassifier = "")) :
    (⟨s.shade.shadedClassifier, s.shade.thinClassifier⟩ : ClassifierPolicy).other
        (SigningStrategy.resolve s.signing) ≠ "" ↔
      s.Signed ∨ s.shade.thinClassifier ≠ "" := by
  rw [Settings.signed_iff] at h ⊢
  cases hstrategy : SigningStrategy.resolve s.signing with
  | signShaded => simpa [ClassifierPolicy.other, hstrategy] using h
  | signDefault => simp [ClassifierPolicy.other]

/-- **When the two files of a build are told apart.**  If a build succeeds, its files have different
names, and one of them is a default artifact and the other is not, exactly if the build is signed or
has a classifier for the plain artifact. -/
theorem files_differ_iff (h : run fs s root = .ok outcome) :
    (outcome.packaging.plan.plain.fileName ≠ outcome.packaging.plan.shaded.fileName ↔
      s.Signed ∨ s.shade.thinClassifier ≠ "") ∧
    (outcome.packaging.plan.plain.isDefault ≠ outcome.packaging.plan.shaded.isDefault ↔
      s.Signed ∨ s.shade.thinClassifier ≠ "") := by
  obtain ⟨hplan, hnot⟩ := plan_of_run h
  have hother := other_ne_empty_iff hnot
  have hname : s.plain.baseName = (Packaging.shadedArtifact s.plain).baseName := rfl
  have hversion : s.plain.version = (Packaging.shadedArtifact s.plain).version := rfl
  rw [hplan, Settings.plan]
  constructor
  · exact (not_congr (PublicationPlan.fileName_draft_eq_iff hname hversion)).trans hother
  · exact (not_congr PublicationPlan.isDefault_draft_eq_iff).trans hother

/-- The settings of a module that says nothing but its name. -/
def nameOnly : Settings := { artifact := ⟨"app", "1"⟩ }

/-- The same settings without a classifier for the plain artifact. -/
def withoutThin : Settings := { nameOnly with shade := { thinClassifier := "" } }

/-- The customary classifier tells the two files apart. -/
theorem files_differ_of_nameOnly :
    ∃ outcome, run .empty nameOnly "." = .ok outcome ∧
      outcome.packaging.plan.plain.fileName ≠ outcome.packaging.plan.shaded.fileName ∧
      outcome.packaging.plan.plain.isDefault ≠ outcome.packaging.plan.shaded.isDefault := by
  obtain ⟨outcome, h⟩ : ∃ outcome, run .empty nameOnly "." = .ok outcome := ⟨_, rfl⟩
  have hthin : nameOnly.Signed ∨ nameOnly.shade.thinClassifier ≠ "" := by decide
  exact ⟨outcome, h, (files_differ_iff h).1.2 hthin, (files_differ_iff h).2.2 hthin⟩

/-- Without a classifier, accepted settings give two default artifacts in files of one name. -/
theorem files_alike_of_withoutThin :
    withoutThin.validate = .ok () ∧
    ∃ outcome, run .empty withoutThin "." = .ok outcome ∧
      outcome.packaging.plan.plain.fileName = outcome.packaging.plan.shaded.fileName ∧
      outcome.packaging.plan.plain.isDefault = true ∧
      outcome.packaging.plan.shaded.isDefault = true := by
  refine ⟨rfl, _, rfl, ?_⟩
  decide +kernel

end Vendoring.Build
