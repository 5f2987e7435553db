import Mathlib.Data.List.Forall2
import Vendoring.Proofs.Publication.Offered

/-!
# Which publications can be planned

Whether a publication can be planned is decided by its variants before they are planned: the number
of default artifacts that a variant will offer can be told from what it offers now
(`plannedDefaults`), and the first variant for which it is not one is what planning fails of
(`planPublication_eq_error_iff`).  A plan keeps the variants in their order, with their names and
their auxiliary artifacts (`Variant.Planned`).

The main result is `planPublication_fails_or_keeps`.
-/

namespace Vendoring

variable {variants : List Variant} {strategy : SigningStrategy} {classifiers : ClassifierPolicy}
  {plain shaded : Artifact}

open PublicationPlan (plainOf shadedOf)

namespace Variant

/-! ## Conflicts -/

/-- The number of default artifacts that a variant offers once it is planned. -/
def plannedDefaults (v : Variant) (strategy : SigningStrategy) (classifiers : ClassifierPolicy) :
    Nat :=
  match strategy with
  | .signShaded => v.plainCount + v.strayCount + if classifiers.shaded = "" then 1 else 0
  | .signDefault => v.strayCount + 1

/-- Is the variant one that cannot be planned?  Where the plain artifact is to be the default one,
there must be one default artifact among the plain ones, the stray ones and the shaded one.  Where
it is the shaded artifact, there must be no stray one. -/
def Unplannable (v : Variant) (strategy : SigningStrategy) (classifiers : ClassifierPolicy) :
    Prop :=
  match strategy with
  | .signShaded => v.plainCount + v.strayCount + (if classifiers.shaded = "" then 1 else 0) ≠ 1
  | .signDefault => ∃ a ∈ v.artifacts, a.kind = .auxiliary ∧ a.isDefault = true

theorem unplannable_iff {v : Variant} :
    v.Unplannable strategy classifiers ↔ v.plannedDefaults strategy classifiers ≠ 1 := by
  cases strategy with
  | signShaded => exact Iff.rfl
  | signDefault =>
    have hstray : v.strayCount + 1 ≠ 1 ↔ 0 < v.strayCount := by omega
    rw [plannedDefaults, hstray, strayCount, List.countP_pos_iff]
    simp only [Unplannable, Bool.and_eq_true, decide_eq_true_eq]

/-- The first variant that will not offer one default artifact is in conflict in a plan. -/
theorem conflict?_draft (hplain : plain.kind = .plain) (hshaded : shaded.kind = .shaded) :
    conflict? (PublicationPlan.draft variants plain shaded strategy classifiers).variants =
      (variants.find? (·.plannedDefaults strategy classifiers ≠ 1)).map
        fun v => ⟨v.name, v.plannedDefaults strategy classifiers⟩ := by
  have hcount : ∀ v : Variant, (v.offering strategy (plainOf strategy classifiers plain)
      (shadedOf strategy classifiers shaded)).defaults.length =
        v.plannedDefaults strategy classifiers := length_defaults_offering hplain hshaded
  simp only [conflict?, PublicationPlan.draft, List.find?_map, Option.map_map, Function.comp_def,
    hcount]
  rfl

/-! ## What a plan keeps -/

/-- Is the second variant what a plan with the given shaded artifact has made of the first one? -/
structure Planned (strategy : SigningStrategy) (shaded : Artifact) (v w : Variant) : Prop where
  name : w.name = v.name
  /-- The shaded artifact of the plan is offered once, and no other one. -/
  shaded : w.artifacts.filter (·.kind = .shaded) = [shaded]
  auxiliary : w.artifacts.filter (·.kind = .auxiliary) = v.artifacts.filter (·.kind = .auxiliary)
  /-- If the shaded artifact is the default one, no plain one is. -/
  plain : strategy = .signDefault → ∀ a ∈ w.artifacts, a.kind = .plain → a.isDefault = false

/-- Auxiliary artifacts stay, all of them and in their order, and nothing becomes one. -/
theorem filter_auxiliary_filterMap_substitute (hplain : plain.kind = .plain) (as : List Artifact) :
    (as.filterMap (substitute strategy plain)).filter (·.kind = .auxiliary) =
      as.filter (·.kind = .auxiliary) := by
  induction as with
  | nil => rfl
  | cons a as ih =>
    cases hbecomes : substitute strategy plain a with
    | none =>
      have hkind : a.kind ≠ .auxiliary := by
        intro hkind
        rw [substitute_of_auxiliary hkind] at hbecomes
        cases hbecomes
      simp [List.filterMap_cons_none hbecomes, hkind, ih]
    | some b =>
      rw [List.filterMap_cons_some hbecomes]
      rcases substitute_cases hbecomes with ⟨-, hkind, rfl⟩ | ⟨-, hkind, -, rfl⟩ | ⟨hkind, rfl⟩
      · simp [hplain, hkind, ih]
      · simp [hkind, ih]
      · simp [hkind, ih]

/-- Where the shaded artifact is the default one, the plain artifacts that stay have classifiers. -/
theorem isDefault_of_substitute_signDefault {a b : Artifact}
    (h : substitute .signDefault plain a = some b) (hb : b.kind = .plain) :
    b.isDefault = false := by
  rcases substitute_cases h with ⟨hstrategy, -⟩ | ⟨-, -, hclassified, rfl⟩ | ⟨hkind, rfl⟩
  · cases hstrategy
  · exact hclassified
  · rw [hkind] at hb
    cases hb

theorem planned_offering (hplain : plain.kind = .plain) (hshaded : shaded.kind = .shaded)
    (v : Variant) : Planned strategy shaded v (v.offering strategy plain shaded) where
  name := rfl
  shaded := by
    have hnone : (v.artifacts.filterMap (substitute strategy plain)).filter (·.kind = .shaded) =
        [] := by
      rw [List.filter_eq_nil_iff]
      intro b hb
      obtain ⟨a, -, ha⟩ := List.mem_filterMap.1 hb
      simpa using kind_ne_of_substitute hplain ha
    rw [artifacts_offering hplain hshaded, List.filter_append, hnone]
    simp [hshaded]
  auxiliary := by
    rw [artifacts_offering hplain hshaded, List.filter_append,
      filter_auxiliary_filterMap_substitute hplain]
    simp [hshaded]
  plain := by
    rintro rfl b hb hkind
    rw [artifacts_offering hplain hshaded, List.mem_append, List.mem_singleton] at hb
    rcases hb with hb | rfl
    · obtain ⟨a, -, ha⟩ := List.mem_filterMap.1 hb
      exact isDefault_of_substitute_signDefault ha hkind
    · rw [hshaded] at hkind
      cases hkind

end Variant

/-! ## Plans -/

/-- Planning fails of the first variant that cannot be planned. -/
theorem planPublication_eq_error_iff (hplain : plain.kind = .plain)
    (hshaded : shaded.kind = .shaded) {conflict : VariantConflict} :
    planPublication variants plain shaded strategy classifiers = .error conflict ↔
      ∃ before v behind, variants = before ++ v :: behind ∧
        (∀ w ∈ before, ¬ w.Unplannable strategy classifiers) ∧
        v.Unplannable strategy classifiers ∧
        conflict = ⟨v.name, v.plannedDefaults strategy classifiers⟩ := by
  have hfound : planPublication variants plain shaded strategy classifiers = .error conflict ↔
      ∃ v, variants.find? (·.plannedDefaults strategy classifiers ≠ 1) = some v ∧
        ⟨v.name, v.plannedDefaults strategy classifiers⟩ = conflict := by
    rw [planPublication_eq_draft, Variant.conflict?_draft hplain hshaded, ← Option.map_eq_some_iff]
    cases (variants.find? (·.plannedDefaults strategy classifiers ≠ 1)).map fun v =>
      (⟨v.name, v.plannedDefaults strategy classifiers⟩ : VariantConflict) <;> simp
  rw [hfound]
  simp only [List.find?_eq_some_iff_append, Variant.unplannable_iff]
  constructor
  · rintro ⟨v, ⟨hne, before, behind, hvariants, hbefore⟩, rfl⟩
    exact ⟨before, v, behind, hvariants, fun w hw => by simpa using hbefore w hw,
      by simpa using hne, rfl⟩
  · rintro ⟨before, v, behind, hvariants, hbefore, hne, rfl⟩
    exact ⟨v, ⟨by simpa using hne, before, behind, hvariants,
      fun w hw => by simpa using hbefore w hw⟩, rfl⟩

/-- **When planning fails, and what it keeps.**  Planning fails exactly if some variant cannot be
planned, and names the first of these with the number of default artifacts it would offer.  If it
does not fail, the variants are still there in their order, each under its name and with its
auxiliary artifacts, the shaded artifact of the plan is offered once in each, and no plain one is a
default beside it. -/
theorem planPublication_fails_or_keeps (hplain : plain.kind = .plain)
    (hshaded : shaded.kind = .shaded) :
    ((∃ conflict, planPublication variants plain shaded strategy classifiers = .error conflict) ↔
      ∃ v ∈ variants, v.Unplannable strategy classifiers) ∧
    (∀ conflict, planPublication variants plain shaded strategy classifiers = .error conflict →
      ∃ before v behind, variants = before ++ v :: behind ∧
        (∀ w ∈ before, ¬ w.Unplannable strategy classifiers) ∧
        v.Unplannable strategy classifiers ∧ conflict.variant = v.name ∧
        conflict.count = v.plannedDefaults strategy classifiers ∧
        conflict.count = (v.offering strategy (plainOf strategy classifiers plain)
          (shadedOf strategy classifiers shaded)).defaults.length) ∧
    ∀ plan, planPublication variants plain shaded strategy classifiers = .ok plan →
      List.Forall₂ (Variant.Planned strategy plan.shaded) variants plan.variants := by
  refine ⟨⟨?_, ?_⟩, ?_, ?_⟩
  · rintro ⟨conflict, h⟩
    obtain ⟨before, v, behind, rfl, -, hv, -⟩ := (planPublication_eq_error_iff hplain hshaded).1 h
    exact ⟨v, List.mem_append_right _ (List.mem_cons_self ..), hv⟩
  · rintro ⟨v, hmem, hv⟩
    cases h : planPublication variants plain shaded strategy classifiers with
    | error conflict => exact ⟨conflict, rfl⟩
    | ok plan =>
      obtain ⟨rfl, hcheck⟩ := planPublication_eq_ok_iff.1 h
      have hcount := hcheck _ (List.mem_map_of_mem hmem)
      rw [Variant.length_defaults_offering hplain hshaded] at hcount
      exact absurd hcount (Variant.unplannable_iff.1 hv)
  · intro conflict h
    obtain ⟨before, v, behind, hvariants, hbefore, hv, rfl⟩ :=
      (planPublication_eq_error_iff hplain hshaded).1 h
    exact ⟨before, v, behind, hvariants, hbefore, hv, rfl, rfl,
      (Variant.length_defaults_offering hplain hshaded v).symm⟩
  · intro plan h
    obtain ⟨rfl, -⟩ := planPublication_eq_ok_iff.1 h
    have hplanned : ∀ v ∈ variants,
        Variant.Planned strategy (shadedOf strategy classifiers shaded) v
          (v.offering strategy (plainOf strategy classifiers plain)
            (shadedOf strategy classifiers shaded)) := fun v _ =>
      Variant.planned_offering (by rw [PublicationPlan.kind_plainOf, hplain])
        (by rw [PublicationPlan.kind_shadedOf, hshaded]) v
    exact List.forall₂_map_right_iff.2 (List.forall₂_same.2 hplanned)

/-- A module that is signed cannot be planned if one of its variants offers an archive of another
one as well; without it the plan keeps the sources. -/
theorem planPublication_fails_or_keeps_of_stray :
    let plain : Artifact := { kind := .plain, baseName := "app", version := "1" }
    let shaded : Artifact := { kind := .shaded, baseName := "app", version := "1" }
    let stray : Artifact := { kind := .auxiliary, baseName := "other", version := "1" }
    let sources : Artifact :=
      { kind := .auxiliary, baseName := "app", version := "1", classifier := .named "sources" }
    let api : Variant := ⟨"apiElements", [sources, plain]⟩
    (plain.kind = .plain ∧ shaded.kind = .shaded) ∧
      (∃ conflict, planPublication [api, ⟨"runtimeElements", [plain, stray]⟩] plain shaded
        .signShaded {} = .error conflict) ∧
      ∃ plan, planPublication [api] plain shaded .signShaded {} = .ok plan ∧
        List.Forall₂ (Variant.Planned .signShaded plan.shaded) [api] plan.variants := by
  intro plain shaded stray sources api
  obtain ⟨plan, hplan⟩ : ∃ plan, planPublication [api] plain shaded .signShaded {} = .ok plan :=
    ⟨_, rfl⟩
  refine ⟨⟨rfl, rfl⟩, (planPublication_fails_or_keeps rfl rfl).1.2 ?_, plan, hplan, ?_⟩
  · exact ⟨⟨"runtimeElements", [plain, stray]⟩, by simp, show (2 : Nat) ≠ 1 by decide⟩
  · exact (planPublication_fails_or_keeps rfl rfl).2.2 plan hplan

end Vendoring
