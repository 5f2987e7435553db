import Mathlib.Data.List.Induction
import Vendoring.Proofs.Publication.Repeated

/-!
# Switching between signing strategies

A publication that is planned can be planned once more with the other strategy: what is planned
starts from the variants and artifacts of the plan before, and if there is a conflict everything
stays as it was (`Publication.next`).

From customary variants, which offer one plain artifact without classifier and auxiliary ones with
classifiers, a run of any length leads to two other states only: the one behind a first plan that
signs the shaded artifact, and the one behind a plan that makes it the default.

* `offering_signDefault_signShaded`: a plan that makes the shaded artifact the default leaves no
  trace of a plan before it that signs it;
* `run_of_notMem` and `run_of_mem`: the state of a run before and behind the first such plan;
* `run_switching`: which plans of a run succeed, and what they are.
-/

namespace Vendoring

open PublicationPlan (plainOf shadedOf)

/-! ## Customary variants -/

namespace Variant

variable {strategy : SigningStrategy} {classifiers : ClassifierPolicy} {plain shaded : Artifact}
  {v : Variant}

/-- A variant as it is before a publication: it offers one plain artifact, which has no classifier,
and any number of auxiliary ones, all of which have classifiers. -/
structure Customary (v : Variant) : Prop where
  onePlain : v.plainCount = 1
  kinds : ∀ a ∈ v.artifacts, a.kind = .plain ∧ a.isDefault = true ∨
    a.kind = .auxiliary ∧ a.isDefault = false

instance (v : Variant) : Decidable v.Customary :=
  decidable_of_iff
    (v.plainCount = 1 ∧ ∀ a ∈ v.artifacts, a.kind = .plain ∧ a.isDefault = true ∨
      a.kind = .auxiliary ∧ a.isDefault = false)
    ⟨fun h => ⟨h.1, h.2⟩, fun h => ⟨h.1, h.2⟩⟩

theorem Customary.strayCount_eq (h : v.Customary) : v.strayCount = 0 := by
  rw [strayCount, List.countP_eq_zero]
  intro a ha
  rcases h.kinds a ha with ⟨hkind, -⟩ | ⟨-, hclassified⟩
  · simp [hkind]
  · simp [hclassified]

/-- A customary variant offers one default artifact when it is planned, if the shaded one has a
classifier where it needs one. -/
theorem Customary.length_defaults_offering (h : v.Customary) (hplain : plain.kind = .plain)
    (hshaded : shaded.kind = .shaded) (hnamed : classifiers.shaded ≠ "") :
    (v.offering strategy (plainOf strategy classifiers plain)
        (shadedOf strategy classifiers shaded)).defaults.length = 1 := by
  rw [Variant.length_defaults_offering hplain hshaded, h.strayCount_eq]
  cases strategy with
  | signShaded => simp [h.onePlain, hnamed]
  | signDefault => rfl

/-- What becomes of a customary artifact if the shaded one is made the default does not depend on
whether that was signed before. -/
theorem substitute_signDefault_bind (hplain : plain.kind = .plain)
    (hdefault : plain.isDefault = true) (plain' : Artifact) {a : Artifact}
    (ha : a.kind = .plain ∧ a.isDefault = true ∨ a.kind = .auxiliary ∧ a.isDefault = false) :
    (substitute .signShaded plain a).bind (substitute .signDefault plain') =
      substitute .signDefault plain' a := by
  rcases ha with ⟨hkind, hdefault'⟩ | ⟨hkind, -⟩
  · rw [substitute_signShaded_of_plain hkind, Option.bind_some,
      substitute_signDefault_of_plain hplain, substitute_signDefault_of_plain hkind, hdefault,
      hdefault']
    rfl
  · rw [substitute_of_auxiliary hkind, Option.bind_some]

/-- **A plan that makes the shaded artifact the default leaves no trace of one that signs it.** -/
theorem Customary.offering_signDefault_signShaded (h : v.Customary) {plain' shaded' : Artifact}
    (hplain : plain.kind = .plain) (hdefault : plain.isDefault = true)
    (hshaded : shaded.kind = .shaded) (hplain' : plain'.kind = .plain)
    (hshaded' : shaded'.kind = .shaded) :
    (v.offering .signShaded plain shaded).offering .signDefault plain' shaded' =
      v.offering .signDefault plain' shaded' := by
  have hdropped : substitute .signDefault plain' shaded = none := substitute_of_shaded hshaded
  have hartifacts : ((v.offering .signShaded plain shaded).offering .signDefault plain'
      shaded').artifacts = (v.offering .signDefault plain' shaded').artifacts := by
    rw [artifacts_offering hplain' hshaded', artifacts_offering hplain' hshaded',
      artifacts_offering hplain hshaded, List.filterMap_append, List.filterMap_filterMap,
      List.filterMap_cons_none hdropped, List.filterMap_nil, List.append_nil,
      List.filterMap_congr fun a ha =>
        substitute_signDefault_bind hplain hdefault plain' (h.kinds a ha)]
  exact congrArg (Variant.mk v.name) hartifacts

/-- Where the shaded artifact is the only default one, none is left when it gets a classifier. -/
theorem Customary.length_defaults_offering_signShaded (h : v.Customary) {plain' shaded' : Artifact}
    (hplain : plain.kind = .plain) (hshaded : shaded.kind = .shaded)
    (hplain' : plain'.kind = .plain) (hshaded' : shaded'.kind = .shaded)
    (hnamed : classifiers.shaded ≠ "") :
    ((v.offering .signDefault plain shaded).offering .signShaded
        (plainOf .signShaded classifiers plain')
        (shadedOf .signShaded classifiers shaded')).defaults.length = 0 := by
  have hartifacts : (v.offering .signDefault plain shaded).artifacts =
      v.artifacts.filterMap (substitute .signDefault plain) ++ [shaded] :=
    artifacts_offering hplain hshaded v
  have hkept : ∀ b ∈ v.artifacts.filterMap (substitute .signDefault plain),
      b.kind = .auxiliary ∧ b.isDefault = false := by
    intro b hb
    obtain ⟨a, ha, hab⟩ := List.mem_filterMap.1 hb
    rcases h.kinds a ha with ⟨hkind, hdefault⟩ | ⟨hkind, hclassified⟩
    · rw [substitute_signDefault_of_plain hkind, if_pos hdefault] at hab
      cases hab
    · rw [substitute_of_auxiliary hkind, Option.some.injEq] at hab
      exact hab ▸ ⟨hkind, hclassified⟩
  -- so neither a plain artifact nor a stray default one is left to be counted
  have hplains : (v.offering .signDefault plain shaded).plainCount = 0 := by
    rw [plainCount, hartifacts, List.countP_append, List.countP_eq_zero.2 fun b hb => ?_]
    · simp [hshaded]
    · simp [(hkept b hb).1]
  have hstrays : (v.offering .signDefault plain shaded).strayCount = 0 := by
    rw [strayCount, hartifacts, List.countP_append, List.countP_eq_zero.2 fun b hb => ?_]
    · simp [hshaded]
    · simp [(hkept b hb).2]
  rw [Variant.length_defaults_offering hplain' hshaded', hplains, hstrays]
  simp [hnamed]

end Variant

/-! ## Publications -/

/-- What planning starts from. -/
structure Publication where
  variants : List Variant
  plain : Artifact
  shaded : Artifact
  classifiers : ClassifierPolicy

namespace Publication

/-- The plan of a publication. -/
def plan (p : Publication) (strategy : SigningStrategy) : Except VariantConflict PublicationPlan :=
  planPublication p.variants p.plain p.shaded strategy p.classifiers

/-- The publication with the variants and artifacts of a plan. -/
def planned (p : Publication) (plan : PublicationPlan) : Publication :=
  { p with variants := plan.variants, plain := plan.plain, shaded := plan.shaded }

/-- The publication behind a plan; a conflict leaves it as it was. -/
def next (p : Publication) (strategy : SigningStrategy) : Publication :=
  match p.plan strategy with
  | .ok plan => p.planned plan
  | .error _ => p

/-- The publication behind one plan after the other. -/
def run (p : Publication) (strategies : List SigningStrategy) : Publication :=
  strategies.foldl next p

@[simp] theorem run_concat (p : Publication) (strategies : List SigningStrategy)
    (strategy : SigningStrategy) :
    p.run (strategies ++ [strategy]) = (p.run strategies).next strategy := by
  simp [run]

/-- The plan of a publication before its variants are checked. -/
def draft (p : Publication) (strategy : SigningStrategy) : PublicationPlan :=
  .draft p.variants p.plain p.shaded strategy p.classifiers

theorem next_of_plan {p : Publication} {strategy : SigningStrategy} {plan : PublicationPlan}
    (h : p.plan strategy = .ok plan) : p.next strategy = p.planned plan := by
  rw [next, h]

theorem next_of_conflict {p : Publication} {strategy : SigningStrategy} {conflict : VariantConflict}
    (h : p.plan strategy = .error conflict) : p.next strategy = p := by
  rw [next, h]

/-- A publication as it is before the first plan. -/
structure Customary (p : Publication) : Prop where
  plain : p.plain.kind = .plain
  shaded : p.shaded.kind = .shaded
  named : p.classifiers.shaded ≠ ""
  variants : ∀ v ∈ p.variants, v.Customary

variable {p q : Publication} {strategy : SigningStrategy}

/-! ### Single plans -/

/-- A customary publication is planned without conflict. -/
theorem Customary.plan_eq (h : p.Customary) (strategy : SigningStrategy) :
    p.plan strategy = .ok (p.draft strategy) := by
  refine planPublication_eq_ok_iff.2 ⟨rfl, fun v hv => ?_⟩
  obtain ⟨w, hw, rfl⟩ := List.mem_map.1 hv
  exact (h.variants w hw).length_defaults_offering h.plain h.shaded h.named

/-- Behind a plan the same strategy makes the same plan. -/
theorem Customary.plan_planned (h : p.Customary) (strategy : SigningStrategy) :
    (p.planned (p.draft strategy)).plan strategy = .ok (p.draft strategy) := by
  have hcheck := (planPublication_eq_ok_iff.1 (h.plan_eq strategy)).2
  exact planPublication_eq_ok_iff.2
    ⟨(PublicationPlan.draft_draft h.plain h.shaded p.variants).symm, hcheck⟩

/-- Behind a plan that signs the shaded artifact, the plan that makes it the default is the one that
would have been made at once. -/
theorem Customary.plan_signDefault_planned (h : p.Customary) :
    (p.planned (p.draft .signShaded)).plan .signDefault = .ok (p.draft .signDefault) := by
  have hcheck := (planPublication_eq_ok_iff.1 (h.plan_eq .signDefault)).2
  refine planPublication_eq_ok_iff.2 ⟨?_, hcheck⟩
  have hvariants : (p.draft .signDefault).variants = (p.draft .signShaded).variants.map
      (Variant.offering .signDefault (plainOf .signDefault p.classifiers p.plain)
        (shadedOf .signDefault p.classifiers p.shaded)) := by
    rw [draft, draft, PublicationPlan.draft, PublicationPlan.draft, List.map_map]
    refine List.map_congr_left fun v hv => ?_
    exact ((h.variants v hv).offering_signDefault_signShaded (by simp [h.plain]) rfl
      (by simp [h.shaded]) (by simp [h.plain]) (by simp [h.shaded])).symm
  exact congrArg (fun vs => { p.draft .signDefault with variants := vs }) hvariants

/-- Behind a plan that makes the shaded artifact the default, a plan that signs it is in conflict:
the first variant has no default artifact. -/
theorem Customary.plan_signShaded_planned (h : p.Customary) {first : Variant} {rest : List Variant}
    (hvariants : p.variants = first :: rest) :
    (p.planned (p.draft .signDefault)).plan .signShaded = .error ⟨first.name, 0⟩ := by
  have hfirst : first.Customary := h.variants first (hvariants ▸ List.mem_cons_self ..)
  have hnone : ((first.offering .signDefault (plainOf .signDefault p.classifiers p.plain)
      (shadedOf .signDefault p.classifiers p.shaded)).offering .signShaded
        (plainOf .signShaded p.classifiers (plainOf .signDefault p.classifiers p.plain))
        (shadedOf .signShaded p.classifiers
          (shadedOf .signDefault p.classifiers p.shaded))).defaults.length = 0 :=
    hfirst.length_defaults_offering_signShaded (by simp [h.plain]) (by simp [h.shaded])
      (by simp [h.plain]) (by simp [h.shaded]) h.named
  have hplanned : (p.planned (p.draft .signDefault)).variants =
      (p.variants.map (Variant.offering .signDefault (plainOf .signDefault p.classifiers p.plain)
        (shadedOf .signDefault p.classifiers p.shaded))) := rfl
  rw [plan, hplanned, hvariants, List.map_cons]
  exact planPublication_cons_eq_error _ hnone Nat.zero_ne_one

/-! ### Runs -/

/-- As long as the shaded artifact has only been signed, a run is where it started, or behind the
first plan. -/
theorem Customary.run_of_notMem (h : p.Customary) {strategies : List SigningStrategy}
    (hnot : .signDefault ∉ strategies) :
    p.run strategies = p ∨ p.run strategies = p.planned (p.draft .signShaded) := by
  induction strategies using List.reverseRecOn with
  | nil => exact .inl rfl
  | append_singleton strategies strategy ih =>
    rw [List.mem_append, List.mem_singleton, not_or] at hnot
    cases strategy with
    | signDefault => exact absurd rfl hnot.2
    | signShaded =>
      refine .inr ?_
      rw [run_concat]
      rcases ih hnot.1 with hstart | hplanned
      · rw [hstart, next_of_plan (h.plan_eq .signShaded)]
      · rw [hplanned, next_of_plan (h.plan_planned .signShaded)]
        rfl

/-- Once the shaded artifact has been made the default, a run stays behind the plan that did this
at once. -/
theorem Customary.run_of_mem (h : p.Customary) {first : Variant} {rest : List Variant}
    (hvariants : p.variants = first :: rest) {strategies : List SigningStrategy}
    (hmem : .signDefault ∈ strategies) :
    p.run strategies = p.planned (p.draft .signDefault) := by
  induction strategies using List.reverseRecOn with
  | nil => cases hmem
  | append_singleton strategies strategy ih =>
    rw [run_concat]
    by_cases hbefore : .signDefault ∈ strategies
    · rw [ih hbefore]
      cases strategy with
      | signShaded => exact next_of_conflict (h.plan_signShaded_planned hvariants)
      | signDefault =>
        rw [next_of_plan (h.plan_planned .signDefault)]
        rfl
    · rw [List.mem_append, List.mem_singleton, or_iff_right hbefore] at hmem
      subst hmem
      rcases h.run_of_notMem hbefore with hstart | hplanned
      · rw [hstart, next_of_plan (h.plan_eq .signDefault)]
      · rw [hplanned, next_of_plan h.plan_signDefault_planned]
        rfl

/-- **Switching between strategies.**  In a run that starts from a customary publication with some
variants, whatever was planned before, the plan that makes the shaded artifact the default is the
one that would have been made at the start.  A plan that signs it is the one that would have been
made at the start as well, until the shaded artifact becomes the default; from then on it is in
conflict, because the first variant has no default artifact left. -/
theorem run_switching (h : p.Customary) {first : Variant} {rest : List Variant}
    (hvariants : p.variants = first :: rest) (strategies : List SigningStrategy) :
    (∃ plan, p.plan .signDefault = .ok plan ∧ (p.run strategies).plan .signDefault = .ok plan) ∧
    (.signDefault ∉ strategies →
      ∃ plan, p.plan .signShaded = .ok plan ∧ (p.run strategies).plan .signShaded = .ok plan) ∧
    (.signDefault ∈ strategies →
      (p.run strategies).plan .signShaded = .error ⟨first.name, 0⟩) := by
  refine ⟨⟨_, h.plan_eq .signDefault, ?_⟩, fun hnot => ⟨_, h.plan_eq .signShaded, ?_⟩, ?_⟩
  · by_cases hmem : .signDefault ∈ strategies
    · rw [h.run_of_mem hvariants hmem]
      exact h.plan_planned .signDefault
    · rcases h.run_of_notMem hmem with hstart | hplanned
      · rw [hstart]
        exact h.plan_eq .signDefault
      · rw [hplanned]
        exact h.plan_signDefault_planned
  · rcases h.run_of_notMem hnot with hstart | hplanned
    · rw [hstart]
      exact h.plan_eq .signShaded
    · rw [hplanned]
      exact h.plan_planned .signShaded
  · intro hmem
    rw [h.run_of_mem hvariants hmem]
    exact h.plan_signShaded_planned hvariants

/-- The publication of a module that offers its sources in one of its variants. -/
def withSources : Publication :=
  let plain : Artifact := { kind := .plain, baseName := "app", version := "1" }
  let sources : Artifact :=
    { kind := .auxiliary, baseName := "app", version := "1", classifier := .named "sources" }
  { variants := [⟨"apiElements", [plain]⟩, ⟨"runtimeElements", [sources, plain]⟩]
    plain
    shaded := { kind := .shaded, baseName := "app", version := "1" }
    classifiers := {} }

/-- Behind a conflict the shaded artifact is made the default as it would have been at the start. -/
theorem run_switching_of_withSources :
    withSources.Customary ∧
      (withSources.run [.signShaded, .signDefault]).plan .signShaded =
        .error ⟨"apiElements", 0⟩ ∧
      ∃ plan, withSources.plan .signDefault = .ok plan ∧
        (withSources.run [.signShaded, .signDefault, .signShaded]).plan .signDefault =
          .ok plan := by
  have h : withSources.Customary := ⟨rfl, rfl, by decide, by decide⟩
  exact ⟨h, (run_switching h rfl [.signShaded, .signDefault]).2.2 (by decide),
    (run_switching h rfl [.signShaded, .signDefault, .signShaded]).1⟩

end Publication

end Vendoring
