import Vendoring.Proofs.Publication.Offered

/-!
# Planning a publication again

A plan holds all that planning starts from, its two artifacts and its variants, so it can be planned
again.  Nothing comes of it: an artifact that one pass has put into a variant is settled
(`Settled`), which is to say that the next pass keeps it as it is, and the shaded artifact is
dropped from its place at the end and comes back to it (`offering_offering`).
-/

namespace Vendoring

variable {strategy : SigningStrategy} {classifiers : ClassifierPolicy} {plain shaded : Artifact}

namespace Variant

/-! ## Settled artifacts -/

/-- Is the artifact one that stays in a variant as it is? -/
def Settled (strategy : SigningStrategy) (plain a : Artifact) : Prop :=
  substitute strategy plain a = some a

/-- What becomes of an artifact is settled. -/
theorem settled_of_substitute {a b : Artifact} (hplain : plain.kind = .plain)
    (h : substitute strategy plain a = some b) : Settled strategy plain b := by
  rcases substitute_cases h with ⟨rfl, -, rfl⟩ | ⟨rfl, hkind, hclassified, rfl⟩ | ⟨hkind, rfl⟩
  · exact substitute_signShaded_of_plain hplain
  · rw [Settled, substitute_signDefault_of_plain hkind, hclassified]
    rfl
  · exact substitute_of_auxiliary hkind

/-- Settled artifacts stay, all of them and in their order. -/
theorem filterMap_substitute_of_settled {as : List Artifact}
    (h : ∀ a ∈ as, Settled strategy plain a) : as.filterMap (substitute strategy plain) = as := by
  induction as with
  | nil => rfl
  | cons a as ih =>
    have hfirst : substitute strategy plain a = some a := h a (List.mem_cons_self ..)
    rw [List.filterMap_cons_some hfirst, ih fun b hb => h b (List.mem_cons_of_mem _ hb)]

/-- A variant that offers the artifacts of a plan offers the same ones when it is planned again. -/
theorem offering_offering (hplain : plain.kind = .plain) (hshaded : shaded.kind = .shaded)
    (v : Variant) :
    (v.offering strategy plain shaded).offering strategy plain shaded =
      v.offering strategy plain shaded := by
  have hsettled : ∀ b ∈ v.artifacts.filterMap (substitute strategy plain),
      Settled strategy plain b := by
    intro b hb
    obtain ⟨a, -, ha⟩ := List.mem_filterMap.1 hb
    exact settled_of_substitute hplain ha
  have hdropped : substitute strategy plain shaded = none := substitute_of_shaded hshaded
  have hartifacts : ((v.offering strategy plain shaded).offering strategy plain shaded).artifacts =
      (v.offering strategy plain shaded).artifacts := by
    rw [artifacts_offering hplain hshaded (v.offering strategy plain shaded),
      artifacts_offering hplain hshaded v, List.filterMap_append,
      filterMap_substitute_of_settled hsettled, List.filterMap_cons_none hdropped,
      List.filterMap_nil, List.append_nil]
  exact congrArg (Variant.mk v.name) hartifacts

end Variant

/-! ## Settled plans -/

namespace PublicationPlan

/-- Another classifier replaces the one that the plain artifact got before. -/
theorem plainOf_plainOf :
    plainOf strategy classifiers (plainOf strategy classifiers plain) =
      plainOf strategy classifiers plain := by
  cases strategy <;> rfl

theorem shadedOf_shadedOf :
    shadedOf strategy classifiers (shadedOf strategy classifiers shaded) =
      shadedOf strategy classifiers shaded := by
  cases strategy <;> rfl

/-- A plan drawn up from a plan is the same plan. -/
theorem draft_draft (hplain : plain.kind = .plain) (hshaded : shaded.kind = .shaded)
    (variants : List Variant) :
    draft (draft variants plain shaded strategy classifiers).variants
        (plainOf strategy classifiers plain) (shadedOf strategy classifiers shaded) strategy
        classifiers =
      draft variants plain shaded strategy classifiers := by
  have hvariants : ∀ v ∈ variants,
      (v.offering strategy (plainOf strategy classifiers plain)
        (shadedOf strategy classifiers shaded)).offering strategy
          (plainOf strategy classifiers plain) (shadedOf strategy classifiers shaded) =
      v.offering strategy (plainOf strategy classifiers plain)
        (shadedOf strategy classifiers shaded) := fun v _ =>
    Variant.offering_offering (by rw [kind_plainOf, hplain]) (by rw [kind_shadedOf, hshaded]) v
  simp only [draft, plainOf_plainOf, shadedOf_shadedOf, List.map_map, Function.comp_def,
    List.map_congr_left hvariants]

end PublicationPlan

/-- **Planning again changes nothing.**  If a plan is made, the same strategy and classifiers make
the same plan of its own variants and artifacts, with every artifact in its place. -/
theorem planPublication_again {variants : List Variant} {plan : PublicationPlan}
    (hplain : plain.kind = .plain) (hshaded : shaded.kind = .shaded)
    (h : planPublication variants plain shaded strategy classifiers = .ok plan) :
    planPublication plan.variants plan.plain plan.shaded strategy classifiers = .ok plan := by
  obtain ⟨rfl, hcheck⟩ := planPublication_eq_ok_iff.1 h
  exact planPublication_eq_ok_iff.2
    ⟨(PublicationPlan.draft_draft hplain hshaded variants).symm, hcheck⟩

/-- A plan with a plain artifact under a classifier, which stays, a shaded one that comes first and
goes to the end, and sources. -/
theorem planPublication_again_of_classified :
    let plain : Artifact :=
      { kind := .plain, baseName := "app", version := "1", classifier := .named "slim" }
    let shaded : Artifact :=
      { kind := .shaded, baseName := "app", version := "1", classifier := .named "fat" }
    let sources : Artifact :=
      { kind := .auxiliary, baseName := "app", version := "1", classifier := .named "sources" }
    let variants : List Variant :=
      [⟨"apiElements", [shaded, plain, sources]⟩, ⟨"runtimeElements", [plain.withClassifier .default]⟩]
    plain.kind = .plain ∧ shaded.kind = .shaded ∧
      ∃ plan, planPublication variants plain shaded .signDefault {} = .ok plan ∧
        plan.variants.map (·.artifacts.map Artifact.fileName) =
          [["app-1-slim.jar", "app-1-sources.jar", "app-1.jar"], ["app-1.jar"]] ∧
        planPublication plan.variants plan.plain plan.shaded .signDefault {} = .ok plan := by
  intro plain shaded sources variants
  obtain ⟨plan, h, hfiles⟩ : ∃ plan,
      planPublication variants plain shaded .signDefault {} = .ok plan ∧
        plan.variants.map (·.artifacts.map Artifact.fileName) =
          [["app-1-slim.jar", "app-1-sources.jar", "app-1.jar"], ["app-1.jar"]] :=
    ⟨_, rfl, by decide⟩
  exact ⟨rfl, rfl, plan, h, hfiles, planPublication_again rfl rfl h⟩

end Vendoring
