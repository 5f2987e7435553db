import Vendoring.Proofs.Publication.Offered

/-!
# The plan of a module with standard variants

A module that publishes nothing but its own artifact has the standard variants, and of the two
artifacts of its plan one is the default.  The other one gets the classifier that goes with the
strategy (`ClassifierPolicy.other`); if this is empty, both are default artifacts, and their files
have the same name.  The check of the variants finds this out only where both artifacts are offered,
which is if the shaded one is the other (`planPublication_standard`).
-/

namespace Vendoring

variable {strategy : SigningStrategy} {classifiers : ClassifierPolicy} {plain shaded : Artifact}

/-- The shaded artifact is signed if there is a key that is not blank. -/
theorem SigningStrategy.resolve_eq_signShaded_iff {credential : Option SigningCredential} :
    resolve credential = .signShaded ↔
      ∃ c, credential = some c ∧ Text.isBlankText c.keyId = false := by
  cases credential with
  | none => simp [resolve]
  | some c => cases hblank : Text.isBlankText c.keyId <;> simp [resolve, hblank]

/-- The classifier of the artifact that is not the default one. -/
def ClassifierPolicy.other (classifiers : ClassifierPolicy) : SigningStrategy → String
  | .signShaded => classifiers.shaded
  | .signDefault => classifiers.thin

/-! ## The two artifacts -/

/-- A file has the name of the default one of its module only if it is a default one itself. -/
theorem Artifact.fileName_eq_iff_isDefault {a b : Artifact} (hname : a.baseName = b.baseName)
    (hversion : a.version = b.version) (hdefault : b.isDefault = true) :
    a.fileName = b.fileName ↔ a.isDefault = true := by
  simp only [fileName, hdefault, hname, hversion]
  cases ha : a.isDefault with
  | true => simp
  | false =>
    simp only [Bool.false_eq_true, if_false, if_true, iff_false]
    intro h
    -- the hyphen before the classifier makes the name longer
    have hlength := congrArg String.length h
    have hhyphen : "-".length = 1 := rfl
    simp only [String.length_append, hhyphen] at hlength
    omega

namespace PublicationPlan

variable {variants : List Variant}

/-- Both artifacts of a plan are default ones if the classifier for the other one is empty, and then
only. -/
theorem isDefault_draft_eq_iff :
    (draft variants plain shaded strategy classifiers).plain.isDefault =
        (draft variants plain shaded strategy classifiers).shaded.isDefault ↔
      classifiers.other strategy = "" := by
  cases strategy with
  | signShaded =>
    rw [eq_comm]
    exact Classifier.isDefault_named_iff
  | signDefault => exact Classifier.isDefault_named_iff

/-- The files of a plan have the same name if the classifier for the other one is empty, and then
only. -/
theorem fileName_draft_eq_iff (hname : plain.baseName = shaded.baseName)
    (hversion : plain.version = shaded.version) :
    (draft variants plain shaded strategy classifiers).plain.fileName =
        (draft variants plain shaded strategy classifiers).shaded.fileName ↔
      classifiers.other strategy = "" := by
  cases strategy with
  | signShaded =>
    rw [eq_comm, Artifact.fileName_eq_iff_isDefault]
    · exact Classifier.isDefault_named_iff
    · exact hname.symm
    · exact hversion.symm
    · rfl
  | signDefault =>
    rw [Artifact.fileName_eq_iff_isDefault]
    · exact Classifier.isDefault_named_iff
    · exact hname
    · exact hversion
    · rfl

end PublicationPlan

/-! ## The variants -/

open PublicationPlan (draft plainOf shadedOf)

variable (strategy classifiers) in
/-- In a standard variant the plain artifact stays if it is to be the default one, and the shaded
one is offered in any case. -/
theorem Variant.defaults_offering_standard (name : String) (hkind : plain.kind = .plain)
    (hshaded : shaded.kind = .shaded) :
    ((⟨name, [plain]⟩ : Variant).offering strategy (plainOf strategy classifiers plain)
        (shadedOf strategy classifiers shaded)).defaults.length =
      if strategy = .signShaded ∧ classifiers.shaded = "" then 2 else 1 := by
  have hplains : plainCount ⟨name, [plain]⟩ = 1 := by simp [plainCount, hkind]
  have hstrays : strayCount ⟨name, [plain]⟩ = 0 := by simp [strayCount, hkind]
  rw [length_defaults_offering hkind hshaded, hplains, hstrays]
  cases strategy with
  | signShaded => by_cases hempty : classifiers.shaded = "" <;> simp [hempty]
  | signDefault => simp

variable (strategy classifiers) in
/-- The standard variants are in conflict if both artifacts are offered as default ones. -/
theorem Variant.conflict?_draft_standard (hkind : plain.kind = .plain)
    (hshaded : shaded.kind = .shaded) :
    Variant.conflict? (draft (standard plain) plain shaded strategy classifiers).variants =
      if strategy = .signShaded ∧ classifiers.shaded = "" then some ⟨"apiElements", 2⟩
      else none := by
  have hlength (name : String) :=
    defaults_offering_standard strategy classifiers name hkind hshaded
  have hvariants : (draft (standard plain) plain shaded strategy classifiers).variants =
      standardNames.map fun name => (⟨name, [plain]⟩ : Variant).offering strategy
        (plainOf strategy classifiers plain) (shadedOf strategy classifiers shaded) := by
    simp [draft, standard]
  rw [hvariants]
  by_cases hboth : strategy = .signShaded ∧ classifiers.shaded = ""
  · rw [if_pos hboth, standardNames, List.map_cons,
      conflict?_cons_of_ne _ (by rw [hlength, if_pos hboth]; decide), hlength, if_pos hboth]
    rfl
  · rw [if_neg hboth, conflict?_eq_none_iff]
    intro v hv
    obtain ⟨name, -, rfl⟩ := List.mem_map.1 hv
    rw [hlength, if_neg hboth]

variable (strategy classifiers) in
/-- **Planning with the standard variants** succeeds, unless the shaded artifact is signed and has
an empty classifier. -/
theorem planPublication_standard (hkind : plain.kind = .plain)
    (hshaded : shaded.kind = .shaded) :
    planPublication (Variant.standard plain) plain shaded strategy classifiers =
      if strategy = .signShaded ∧ classifiers.shaded = "" then .error ⟨"apiElements", 2⟩
      else .ok (draft (Variant.standard plain) plain shaded strategy classifiers) := by
  rw [planPublication_eq_draft,
    Variant.conflict?_draft_standard strategy classifiers hkind hshaded]
  by_cases hboth : strategy = .signShaded ∧ classifiers.shaded = ""
  · simp only [if_pos hboth]
  · simp only [if_neg hboth]

end Vendoring
