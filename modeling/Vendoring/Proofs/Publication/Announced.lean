import Vendoring.Proofs.Publication.Offered

/-!
# The default artifact that a plan announces

A plan announces one of its two artifacts as the default one.  The check of its variants counts
default artifacts and does not look at them, so an announced artifact may be missing where another
one, of whatever kind, has no classifier either.  `announced_iff` says when a plan that passed the
check keeps its word; `not_announced_of_stray_default` is a plan that does not.
-/

namespace Vendoring

/-- Every variant of the plan offers the announced artifact as its only default one, and what is to
be signed is offered in every variant under a classifier. -/
structure PublicationPlan.Announced (p : PublicationPlan) : Prop where
  defaults_eq : ∀ v ∈ p.variants, v.defaults = [p.defaultArtifact]
  signed : ∀ input, p.signingInput = some input →
    (∀ v ∈ p.variants, input ∈ v.artifacts) ∧ input.isDefault = false

variable {variants : List Variant} {strategy : SigningStrategy} {classifiers : ClassifierPolicy}
  {plain shaded : Artifact}

open PublicationPlan (draft plainOf shadedOf)

/-- If the shaded artifact becomes the default one, it is in every variant. -/
theorem announced_of_signDefault (hplain : plain.kind = .plain) (hshaded : shaded.kind = .shaded)
    (hcheck : ∀ v ∈ (draft variants plain shaded .signDefault classifiers).variants,
      v.defaults.length = 1) :
    (draft variants plain shaded .signDefault classifiers).Announced where
  defaults_eq v hv := by
    refine Variant.defaults_eq_of_mem (hcheck v hv) ?_
    obtain ⟨w, -, rfl⟩ := List.mem_map.1 hv
    rw [Variant.defaults, List.mem_filter,
      Variant.artifacts_offering (by simp [hplain]) (by simp [hshaded])]
    exact ⟨List.mem_append_right _ (List.mem_singleton_self _), rfl⟩
  signed input h := by cases h

/-- If the plain artifact is the default one, a variant offers it if it offered a plain one. -/
theorem plainOf_mem_offering_iff (hplain : plain.kind = .plain) (hshaded : shaded.kind = .shaded)
    (v : Variant) :
    plainOf .signShaded classifiers plain ∈
        (v.offering .signShaded (plainOf .signShaded classifiers plain)
          (shadedOf .signShaded classifiers shaded)).artifacts ↔
      ∃ a ∈ v.artifacts, a.kind = .plain := by
  have hne : plainOf .signShaded classifiers plain ≠ shadedOf .signShaded classifiers shaded := by
    intro h
    have hkind := congrArg Artifact.kind h
    simp [hplain, hshaded] at hkind
  rw [Variant.artifacts_offering (by simp [hplain]) (by simp [hshaded]), List.mem_append,
    List.mem_singleton, or_iff_left hne, List.mem_filterMap]
  refine exists_congr fun a => and_congr_right fun _ => ?_
  cases hkind : a.kind with
  | plain => simp [Variant.substitute_signShaded_of_plain hkind]
  | shaded => simp [Variant.substitute_of_shaded hkind]
  | auxiliary =>
    simp only [Variant.substitute_of_auxiliary hkind, Option.some.injEq, reduceCtorEq, iff_false]
    rintro rfl
    simp [hplain] at hkind

/-- If the plain artifact is the default one, the plan keeps its word if the shaded one has a
classifier and every variant offered a plain one. -/
theorem announced_signShaded_iff (hplain : plain.kind = .plain) (hshaded : shaded.kind = .shaded)
    (hcheck : ∀ v ∈ (draft variants plain shaded .signShaded classifiers).variants,
      v.defaults.length = 1) :
    (draft variants plain shaded .signShaded classifiers).Announced ↔
      classifiers.shaded ≠ "" ∧ ∀ v ∈ variants, ∃ a ∈ v.artifacts, a.kind = .plain := by
  have hclassifier : (shadedOf .signShaded classifiers shaded).isDefault = false ↔
      classifiers.shaded ≠ "" := by
    rw [← Bool.not_eq_true]
    exact Classifier.isDefault_named_iff.not
  constructor
  · intro h
    refine ⟨hclassifier.1 (h.signed _ rfl).2, fun v hv => ?_⟩
    have hdefaults := h.defaults_eq _ (List.mem_map_of_mem hv)
    rw [← plainOf_mem_offering_iff hplain hshaded]
    have hmem := hdefaults ▸ List.mem_singleton_self _
    exact List.mem_of_mem_filter hmem
  · rintro ⟨hnamed, hplains⟩
    constructor
    · intro v hv
      refine Variant.defaults_eq_of_mem (hcheck v hv) ?_
      obtain ⟨w, hw, rfl⟩ := List.mem_map.1 hv
      rw [Variant.defaults, List.mem_filter]
      exact ⟨(plainOf_mem_offering_iff hplain hshaded w).2 (hplains w hw), rfl⟩
    · rintro input ⟨⟩
      refine ⟨fun v hv => ?_, hclassifier.2 hnamed⟩
      obtain ⟨w, -, rfl⟩ := List.mem_map.1 hv
      rw [Variant.artifacts_offering (by simp [hplain]) (by simp [hshaded])]
      exact List.mem_append_right _ (List.mem_singleton_self _)

/-- **When a plan keeps its word.**  A plan that passed the check has the default artifact it
announces, in every variant and as the only one, and offers what is to be signed under a
classifier, exactly if it makes the shaded artifact the default one, or gives the shaded artifact a
classifier and every variant offered a plain artifact before. -/
theorem announced_iff {plan : PublicationPlan} (hplain : plain.kind = .plain)
    (hshaded : shaded.kind = .shaded)
    (h : planPublication variants plain shaded strategy classifiers = .ok plan) :
    plan.Announced ↔
      strategy = .signDefault ∨
        classifiers.shaded ≠ "" ∧ ∀ v ∈ variants, ∃ a ∈ v.artifacts, a.kind = .plain := by
  obtain ⟨rfl, hcheck⟩ := planPublication_eq_ok_iff.1 h
  cases strategy with
  | signShaded =>
    rw [announced_signShaded_iff hplain hshaded hcheck]
    simp
  | signDefault =>
    exact ⟨fun _ => .inl rfl, fun _ => announced_of_signDefault hplain hshaded hcheck⟩

/-- A module with sources that is signed keeps its word. -/
theorem announced_of_sources :
    let plain : Artifact := { kind := .plain, baseName := "app", version := "1" }
    let shaded : Artifact := { kind := .shaded, baseName := "app", version := "1" }
    let sources : Artifact :=
      { kind := .auxiliary, baseName := "app", version := "1", classifier := .named "sources" }
    let variants : List Variant := [⟨"apiElements", [plain]⟩, ⟨"runtimeElements", [sources, plain]⟩]
    ∃ plan, planPublication variants plain shaded .signShaded {} = .ok plan ∧ plan.Announced := by
  intro plain shaded sources variants
  obtain ⟨plan, h⟩ : ∃ plan, planPublication variants plain shaded .signShaded {} = .ok plan :=
    ⟨_, rfl⟩
  exact ⟨plan, h, (announced_iff rfl rfl h).2 (.inr ⟨by decide, by decide⟩)⟩

/-- A variant whose only default artifact is an auxiliary one passes the check, although the plan
announces the plain artifact. -/
theorem not_announced_of_stray_default :
    let plain : Artifact := { kind := .plain, baseName := "app", version := "1" }
    let shaded : Artifact := { kind := .shaded, baseName := "app", version := "1" }
    let stray : Artifact := { kind := .auxiliary, baseName := "other", version := "1" }
    ∃ plan, planPublication [⟨"apiElements", [stray]⟩] plain shaded .signShaded {} = .ok plan ∧
      ¬ plan.Announced := by
  intro plain shaded stray
  refine ⟨_, rfl, fun h => ?_⟩
  exact absurd (h.defaults_eq _ (List.mem_singleton_self _)) (by decide)

end Vendoring
