import Mathlib.Data.List.Basic
import Vendoring.Publication.Plan

/-!
# What a planned variant offers

A plan is drawn up first and checked afterwards: `PublicationPlan.draft` is the plan before its
variants are checked, and `planPublication_eq_ok_iff` says that it is the result of planning exactly
if each of its variants offers one default artifact.  What a variant offers is a part that its
artifacts decide one by one, and behind it the shaded artifact (`artifacts_offering`).
-/

namespace Vendoring

variable {strategy : SigningStrategy} {classifiers : ClassifierPolicy} {plain shaded : Artifact}

/-! ## The plan and its check -/

namespace PublicationPlan

/-- The plain artifact as a plan publishes it. -/
def plainOf (strategy : SigningStrategy) (classifiers : ClassifierPolicy) (plain : Artifact) :
    Artifact :=
  match strategy with
  | .signShaded => plain.withClassifier .default
  | .signDefault => plain.withClassifier (.named classifiers.thin)

/-- The shaded artifact as a plan publishes it. -/
def shadedOf (strategy : SigningStrategy) (classifiers : ClassifierPolicy) (shaded : Artifact) :
    Artifact :=
  match strategy with
  | .signShaded => shaded.withClassifier (.named classifiers.shaded)
  | .signDefault => shaded.withClassifier .default

/-- The plan before its variants are checked. -/
def draft (variants : List Variant) (plain shaded : Artifact) (strategy : SigningStrategy)
    (classifiers : ClassifierPolicy) : PublicationPlan where
  strategy := strategy
  plain := plainOf strategy classifiers plain
  shaded := shadedOf strategy classifiers shaded
  variants := variants.map
    (Variant.offering strategy (plainOf strategy classifiers plain)
      (shadedOf strategy classifiers shaded))
  signingInput :=
    match strategy with
    | .signShaded => some (shadedOf strategy classifiers shaded)
    | .signDefault => none

@[simp] theorem kind_plainOf : (plainOf strategy classifiers plain).kind = plain.kind := by
  cases strategy <;> rfl

@[simp] theorem kind_shadedOf : (shadedOf strategy classifiers shaded).kind = shaded.kind := by
  cases strategy <;> rfl

end PublicationPlan

/-- Variants are without conflict if each of them offers one default artifact. -/
theorem Variant.conflict?_eq_none_iff {vs : List Variant} :
    Variant.conflict? vs = none ↔ ∀ v ∈ vs, v.defaults.length = 1 := by
  simp [conflict?, List.find?_eq_none]

/-- A variant that does not offer one default artifact is in conflict before those behind it. -/
theorem Variant.conflict?_cons_of_ne {v : Variant} (vs : List Variant)
    (h : v.defaults.length ≠ 1) :
    Variant.conflict? (v :: vs) = some ⟨v.name, v.defaults.length⟩ := by
  rw [conflict?, List.find?_cons_of_pos (by simpa using h), Option.map_some]

/-- Planning draws up the plan, and gives it out if all its variants pass the check. -/
theorem planPublication_eq_draft (variants : List Variant) (plain shaded : Artifact)
    (strategy : SigningStrategy) (classifiers : ClassifierPolicy) :
    planPublication variants plain shaded strategy classifiers =
      match Variant.conflict?
        (PublicationPlan.draft variants plain shaded strategy classifiers).variants with
      | some conflict => .error conflict
      | none => .ok (PublicationPlan.draft variants plain shaded strategy classifiers) := by
  cases strategy <;> rfl

/-- A first variant that would not offer one default artifact is what planning fails of. -/
theorem planPublication_cons_eq_error {v : Variant} (vs : List Variant) {count : Nat}
    (hcount : (v.offering strategy (PublicationPlan.plainOf strategy classifiers plain)
      (PublicationPlan.shadedOf strategy classifiers shaded)).defaults.length = count)
    (hne : count ≠ 1) :
    planPublication (v :: vs) plain shaded strategy classifiers = .error ⟨v.name, count⟩ := by
  have hvariants : (PublicationPlan.draft (v :: vs) plain shaded strategy classifiers).variants =
      (v :: vs).map (Variant.offering strategy (PublicationPlan.plainOf strategy classifiers plain)
        (PublicationPlan.shadedOf strategy classifiers shaded)) := rfl
  rw [planPublication_eq_draft, hvariants, List.map_cons,
    Variant.conflict?_cons_of_ne _ (hcount ▸ hne), hcount]
  rfl

theorem planPublication_eq_ok_iff {variants : List Variant} {plan : PublicationPlan} :
    planPublication variants plain shaded strategy classifiers = .ok plan ↔
      plan = PublicationPlan.draft variants plain shaded strategy classifiers ∧
      ∀ v ∈ plan.variants, v.defaults.length = 1 := by
  rw [planPublication_eq_draft]
  constructor
  · intro h
    split at h
    · cases h
    · next hnone =>
      cases h
      exact ⟨rfl, Variant.conflict?_eq_none_iff.1 hnone⟩
  · rintro ⟨rfl, h⟩
    rw [Variant.conflict?_eq_none_iff.2 h]

/-! ## The artifacts of a variant -/

namespace Classifier

/-- A named classifier is the default one only if the name is empty. -/
theorem isDefault_named_iff {name : String} : (named name).isDefault = true ↔ name = "" := by
  by_cases h : name = "" <;> simp [named, isDefault, default, h]

end Classifier

namespace Variant

/-- A variant with one default artifact offers no other than one that is known to be there. -/
theorem defaults_eq_of_mem {v : Variant} {a : Artifact} (h : v.defaults.length = 1)
    (ha : a ∈ v.defaults) : v.defaults = [a] := by
  obtain ⟨b, hb⟩ := List.length_eq_one_iff.1 h
  rw [hb, List.mem_singleton] at ha
  rw [hb, ha]

section Substitute

variable {a b : Artifact}

theorem substitute_of_shaded (h : a.kind = .shaded) : substitute strategy plain a = none := by
  simp [substitute, h]

theorem substitute_of_auxiliary (h : a.kind = .auxiliary) :
    substitute strategy plain a = some a := by
  simp [substitute, h]

theorem substitute_signShaded_of_plain (h : a.kind = .plain) :
    substitute .signShaded plain a = some plain := by
  simp [substitute, h]

theorem substitute_signDefault_of_plain (h : a.kind = .plain) :
    substitute .signDefault plain a = if a.isDefault then none else some a := by
  simp [substitute, h]

/-- What becomes of an artifact is the plain artifact of the plan in the place of another one, or
the artifact itself if it is a plain one with a classifier or an auxiliary one. -/
theorem substitute_cases (h : substitute strategy plain a = some b) :
    (strategy = .signShaded ∧ a.kind = .plain ∧ b = plain) ∨
      (strategy = .signDefault ∧ a.kind = .plain ∧ a.isDefault = false ∧ b = a) ∨
      (a.kind = .auxiliary ∧ b = a) := by
  cases hkind : a.kind with
  | plain =>
    cases strategy with
    | signShaded =>
      rw [substitute_signShaded_of_plain hkind, Option.some.injEq] at h
      exact .inl ⟨rfl, rfl, h.symm⟩
    | signDefault =>
      rw [substitute_signDefault_of_plain hkind, Option.ite_none_left_eq_some,
        Option.some.injEq] at h
      exact .inr (.inl ⟨rfl, rfl, Bool.eq_false_iff.2 h.1, h.2.symm⟩)
  | shaded =>
    rw [substitute_of_shaded hkind] at h
    cases h
  | auxiliary =>
    rw [substitute_of_auxiliary hkind, Option.some.injEq] at h
    exact .inr (.inr ⟨rfl, h.symm⟩)

/-- Nothing is turned into a shaded artifact. -/
theorem kind_ne_of_substitute (hplain : plain.kind = .plain)
    (h : substitute strategy plain a = some b) : b.kind ≠ .shaded := by
  rcases substitute_cases h with ⟨-, -, rfl⟩ | ⟨-, hkind, -, rfl⟩ | ⟨hkind, rfl⟩
  · rw [hplain]
    decide
  · rw [hkind]
    decide
  · rw [hkind]
    decide

end Substitute

/-- A variant offers what becomes of its artifacts, and then the shaded artifact. -/
theorem artifacts_offering (hplain : plain.kind = .plain) (hshaded : shaded.kind = .shaded)
    (v : Variant) :
    (v.offering strategy plain shaded).artifacts =
      v.artifacts.filterMap (substitute strategy plain) ++ [shaded] := by
  have hnew : shaded ∉ v.artifacts.filterMap (substitute strategy plain) := by
    intro hmem
    obtain ⟨a, -, ha⟩ := List.mem_filterMap.1 hmem
    exact kind_ne_of_substitute hplain ha hshaded
  simp [offering, hnew]

/-! ## Counting the default artifacts -/

/-- The number of plain artifacts. -/
def plainCount (v : Variant) : Nat := v.artifacts.countP (·.kind = .plain)

/-- The number of auxiliary artifacts without classifier. -/
def strayCount (v : Variant) : Nat := v.artifacts.countP fun a => a.kind = .auxiliary && a.isDefault

/-- If the plain artifact is the default one, every plain artifact of a variant becomes one. -/
theorem countP_substitute_signShaded (hdefault : plain.isDefault = true) (as : List Artifact) :
    (as.filterMap (substitute .signShaded plain)).countP Artifact.isDefault =
      as.countP (·.kind = .plain) + as.countP fun a => a.kind = .auxiliary && a.isDefault := by
  induction as with
  | nil => rfl
  | cons a as ih =>
    cases hkind : a.kind with
    | plain =>
      rw [List.filterMap_cons_some (substitute_signShaded_of_plain hkind)]
      simp [hdefault, hkind, ih]
      omega
    | shaded =>
      rw [List.filterMap_cons_none (substitute_of_shaded hkind)]
      simp [hkind, ih]
    | auxiliary =>
      rw [List.filterMap_cons_some (substitute_of_auxiliary hkind)]
      simp [hkind, ih, List.countP_cons]
      omega

/-- If the shaded artifact is the default one, no plain artifact of a variant stays one. -/
theorem countP_substitute_signDefault (as : List Artifact) :
    (as.filterMap (substitute .signDefault plain)).countP Artifact.isDefault =
      as.countP fun a => a.kind = .auxiliary && a.isDefault := by
  induction as with
  | nil => rfl
  | cons a as ih =>
    cases hkind : a.kind with
    | plain =>
      rw [List.filterMap_cons, substitute_signDefault_of_plain hkind]
      cases hdefault : a.isDefault with
      | true => simp [hkind, ih]
      | false => simp [hkind, hdefault, ih]
    | shaded =>
      rw [List.filterMap_cons_none (substitute_of_shaded hkind)]
      simp [hkind, ih]
    | auxiliary =>
      rw [List.filterMap_cons_some (substitute_of_auxiliary hkind)]
      simp [hkind, ih, List.countP_cons]

/-- **How many default artifacts a planned variant offers**: the shaded one if it has no classifier,
the auxiliary ones without classifier, and as many plain ones as it had if the plan keeps these. -/
theorem length_defaults_offering (hplain : plain.kind = .plain) (hshaded : shaded.kind = .shaded)
    (v : Variant) :
    (v.offering strategy (PublicationPlan.plainOf strategy classifiers plain)
        (PublicationPlan.shadedOf strategy classifiers shaded)).defaults.length =
      match strategy with
      | .signShaded => v.plainCount + v.strayCount + if classifiers.shaded = "" then 1 else 0
      | .signDefault => v.strayCount + 1 := by
  rw [defaults, ← List.countP_eq_length_filter,
    artifacts_offering (by simp [hplain]) (by simp [hshaded]), List.countP_append,
    List.countP_singleton]
  cases strategy with
  | signShaded =>
    have hclassifier : (PublicationPlan.shadedOf .signShaded classifiers shaded).isDefault = true ↔
      classifiers.shaded = "" := Classifier.isDefault_named_iff
    rw [countP_substitute_signShaded rfl, plainCount, strayCount]
    by_cases hempty : classifiers.shaded = "" <;> simp [hclassifier, hempty]
  | signDefault =>
    rw [countP_substitute_signDefault, strayCount]
    rfl

end Variant

end Vendoring
