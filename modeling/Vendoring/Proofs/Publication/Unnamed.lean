import Vendoring.Proofs.Json.Decoded
import Vendoring.Proofs.Publication.Offered
import Vendoring.Json.Records

/-!
# Artifacts without a classifier text

The check of a plan asks which artifacts have the default classifier, and a file is named by the
text of its classifier.  The two agree on a classifier that is `Faithful`.  Whatever is made of a
name is, but a decoded classifier is not if it stands as an empty string in the JSON text
(`Classifier.faithful_iff_of_decode`).

The main result is `planPublication_unnamed_iff`: every variant of a plan offers one artifact
without a classifier text exactly if all artifacts the plan has taken over have faithful
classifiers.
-/

namespace Vendoring

variable {strategy : SigningStrategy} {classifiers : ClassifierPolicy} {plain shaded : Artifact}

open PublicationPlan (plainOf shadedOf)

/-! ## Faithful classifiers -/

namespace Classifier

/-- Is the default classifier told by its text? -/
def Faithful (c : Classifier) : Prop := c.isDefault = true ↔ c.text = ""

instance (c : Classifier) : Decidable c.Faithful :=
  inferInstanceAs (Decidable (c.isDefault = true ↔ c.text = ""))

theorem faithful_default : default.Faithful := by decide

/-- The empty text is the only one that a classifier must not hold. -/
theorem faithful_iff {c : Classifier} : c.Faithful ↔ c.text? ≠ some "" := by
  obtain ⟨text?⟩ := c
  cases text? <;> simp [Faithful, isDefault, Classifier.text]

theorem faithful_named (name : String) : (named name).Faithful := by
  rw [faithful_iff, named]
  split <;> simp_all [default]

theorem text_of_isDefault {c : Classifier} (h : c.isDefault = true) : c.text = "" := by
  rw [isDefault, Option.isNone_iff_eq_none] at h
  rw [text, h]
  rfl

/-- A classifier that is no faithful one has no text, although it is not the default one. -/
theorem of_not_faithful {c : Classifier} (h : ¬ c.Faithful) :
    c.isDefault = false ∧ c.text = "" := by
  obtain ⟨text?⟩ := c
  rw [faithful_iff, not_not] at h
  cases h
  exact ⟨rfl, rfl⟩

/-- A decoded classifier is faithful unless an empty string was decoded. -/
theorem faithful_iff_of_decode {s : String} {c : Classifier} (h : Json.decode decode s = .ok c) :
    c.Faithful ↔ Json.decode Json.decodeString s ≠ .ok "" := by
  obtain ⟨hread, hblank⟩ := Json.decode_eq_ok_iff.1 h
  obtain ⟨text?, htext, rfl⟩ := map_eq_ok_iff.1 hread
  rw [faithful_iff, ne_eq, ne_eq, not_iff_not, Json.decode_eq_ok_iff]
  constructor
  · rintro rfl
    exact ⟨(Json.decodeOption_eq_some_iff.1 htext).2, hblank⟩
  · rintro ⟨hempty, -⟩
    have hnotNull : (Json.Reading.ofChars s.toList).1 ≠ .null := by
      intro hnull
      rw [hnull] at hempty
      exact Json.refuse_ne_ok "a string" .null "" hempty
    have hsome := Json.decodeOption_eq_some_iff.2 ⟨hnotNull, hempty⟩
    rw [htext] at hsome
    cases hsome
    rfl

end Classifier

/-! ## Variants -/

namespace Variant

/-- The artifacts without a classifier text. -/
def unnamed (v : Variant) : List Artifact := v.artifacts.filter (·.classifier.text = "")

theorem mem_unnamed {v : Variant} {a : Artifact} :
    a ∈ v.unnamed ↔ a ∈ v.artifacts ∧ a.classifier.text = "" := by
  simp [unnamed]

/-- A variant with one default artifact has no other one without a classifier text if all its
classifiers are faithful, and only then. -/
theorem length_unnamed_eq_one_iff {v : Variant} (h : v.defaults.length = 1) :
    v.unnamed.length = 1 ↔ ∀ a ∈ v.artifacts, a.classifier.Faithful := by
  constructor
  · intro hone a ha
    by_contra hfaithful
    obtain ⟨d, hd⟩ := List.length_eq_one_iff.1 h
    obtain ⟨hmem, hdefault⟩ : d ∈ v.artifacts ∧ d.isDefault = true := by
      rw [← List.mem_filter, ← defaults, hd, List.mem_singleton]
    obtain ⟨hother, htext⟩ := Classifier.of_not_faithful hfaithful
    -- both are the only one without a text, but `a` is no default one
    obtain ⟨b, hb⟩ := List.length_eq_one_iff.1 hone
    have hda : d = a := by
      have hdb := mem_unnamed.2 ⟨hmem, Classifier.text_of_isDefault hdefault⟩
      have hab := mem_unnamed.2 ⟨ha, htext⟩
      rw [hb, List.mem_singleton] at hdb hab
      rw [hdb, hab]
    rw [hda, Artifact.isDefault, hother] at hdefault
    cases hdefault
  · intro hfaithful
    have hsame : v.unnamed = v.defaults := by
      refine List.filter_congr fun a ha => ?_
      rw [Artifact.isDefault, Bool.eq_iff_iff, decide_eq_true_iff]
      exact (hfaithful a ha).symm
    rw [hsame, h]

end Variant

/-- Does a plan have an artifact of its own in the place of this one? -/
def Artifact.Replaced (strategy : SigningStrategy) (a : Artifact) : Prop :=
  a.kind = .shaded ∨ a.kind = .plain ∧ strategy = .signShaded

instance (a : Artifact) : Decidable (a.Replaced strategy) :=
  inferInstanceAs (Decidable (a.kind = .shaded ∨ a.kind = .plain ∧ strategy = .signShaded))

namespace Variant

/-- What an artifact becomes has a faithful classifier if the artifact had, or was replaced. -/
theorem faithful_substitute_iff (hplain : plain.classifier.Faithful) {a : Artifact} :
    (∀ b, substitute strategy plain a = some b → b.classifier.Faithful) ↔
      a.classifier.Faithful ∨ a.Replaced strategy := by
  cases hkind : a.kind with
  | plain =>
    cases strategy with
    | signShaded =>
      simp [substitute_signShaded_of_plain hkind, Artifact.Replaced, hkind, hplain]
    | signDefault =>
      have hdefault : a.isDefault = true → a.classifier.Faithful := fun h =>
        ⟨fun _ => Classifier.text_of_isDefault h, fun _ => h⟩
      by_cases h : a.isDefault = true
      · simp [substitute_signDefault_of_plain hkind, h, hdefault h]
      · simp [substitute_signDefault_of_plain hkind, Artifact.Replaced, hkind, h]
  | shaded => simp [substitute_of_shaded hkind, Artifact.Replaced, hkind]
  | auxiliary => simp [substitute_of_auxiliary hkind, Artifact.Replaced, hkind]

/-- A planned variant has faithful classifiers if the artifacts that were taken over have. -/
theorem faithful_offering_iff (hplain : plain.kind = .plain) (hshaded : shaded.kind = .shaded)
    (v : Variant) :
    (∀ a ∈ (v.offering strategy (plainOf strategy classifiers plain)
        (shadedOf strategy classifiers shaded)).artifacts, a.classifier.Faithful) ↔
      ∀ a ∈ v.artifacts, a.classifier.Faithful ∨ a.Replaced strategy := by
  have hown : (plainOf strategy classifiers plain).classifier.Faithful ∧
      (shadedOf strategy classifiers shaded).classifier.Faithful := by
    cases strategy with
    | signShaded => exact ⟨Classifier.faithful_default, Classifier.faithful_named _⟩
    | signDefault => exact ⟨Classifier.faithful_named _, Classifier.faithful_default⟩
  rw [artifacts_offering (by simp [hplain]) (by simp [hshaded]), List.forall_mem_append]
  simp only [List.mem_singleton, forall_eq, hown.2, and_true, List.mem_filterMap,
    ← faithful_substitute_iff hown.1]
  constructor
  · intro h a ha b hb
    exact h b ⟨a, ha, hb⟩
  · rintro h b ⟨a, ha, hb⟩
    exact h a ha b hb

end Variant

/-! ## Plans -/

/-- **When a plan has one artifact without a classifier text.**  The classifiers that are made of
names are faithful, and of the decoded ones those that do not stand as an empty string in the text.
Every variant of a plan offers exactly one artifact without a classifier text if and only if the
artifacts that stayed in the variants have faithful classifiers. -/
theorem planPublication_unnamed_iff {variants : List Variant} (hplain : plain.kind = .plain)
    (hshaded : shaded.kind = .shaded) :
    Classifier.default.Faithful ∧ (∀ name, (Classifier.named name).Faithful) ∧
    (∀ s c, Json.decode Classifier.decode s = .ok c →
      (c.Faithful ↔ Json.decode Json.decodeString s ≠ .ok "")) ∧
    ∀ plan, planPublication variants plain shaded strategy classifiers = .ok plan →
      ((∀ v ∈ plan.variants, v.unnamed.length = 1) ↔
        ∀ v ∈ variants, ∀ a ∈ v.artifacts, a.classifier.Faithful ∨ a.Replaced strategy) := by
  refine ⟨Classifier.faithful_default, Classifier.faithful_named,
    fun s c => Classifier.faithful_iff_of_decode, ?_⟩
  intro plan h
  obtain ⟨rfl, hcheck⟩ := planPublication_eq_ok_iff.1 h
  have hone : ∀ v ∈ variants,
      ((v.offering strategy (plainOf strategy classifiers plain)
        (shadedOf strategy classifiers shaded)).unnamed.length = 1 ↔
      ∀ a ∈ v.artifacts, a.classifier.Faithful ∨ a.Replaced strategy) := by
    intro v hv
    rw [Variant.length_unnamed_eq_one_iff (hcheck _ (List.mem_map_of_mem hv)),
      Variant.faithful_offering_iff hplain hshaded]
  simp only [PublicationPlan.draft, List.forall_mem_map]
  exact forall₂_congr hone

/-- Decoded variants whose other artifacts have a classifier offer one artifact without one. -/
theorem planPublication_unnamed_of_sources :
    let plain : Artifact := { kind := .plain, baseName := "app", version := "1" }
    let shaded : Artifact := { kind := .shaded, baseName := "app", version := "1" }
    ∃ variants plan,
      Json.decode (Json.decodeList Variant.decode)
        ("[\x7b\"name\":\"apiElements\",\"artifacts\":[" ++
        "\x7b\"kind\":\"plain\",\"baseName\":\"app\",\"version\":\"1\",\"classifier\":\"\"\x7d," ++
        "\x7b\"kind\":\"auxiliary\",\"baseName\":\"app\",\"version\":\"1\"," ++
        "\"classifier\":\"sources\"\x7d]\x7d]") = .ok variants ∧
      planPublication variants plain shaded .signShaded {} = .ok plan ∧
      ∀ v ∈ plan.variants, v.unnamed.length = 1 := by
  intro plain shaded
  let sources : Artifact := { plain with kind := .auxiliary, classifier := ⟨some "sources"⟩ }
  let nameless : Artifact := { plain with classifier := ⟨some ""⟩ }
  let variants : List Variant := [⟨"apiElements", [nameless, sources]⟩]
  obtain ⟨plan, hplan⟩ : ∃ plan, planPublication variants plain shaded .signShaded {} = .ok plan :=
    ⟨_, rfl⟩
  refine ⟨variants, plan, mem_toOption_iff.1 (by decide +kernel), hplan, ?_⟩
  exact ((planPublication_unnamed_iff rfl rfl).2.2.2 plan hplan).2 (by decide)

/-- An auxiliary artifact whose classifier is decoded from the empty string passes the check, and
has no classifier text either. -/
theorem exists_unnamed_of_empty_string :
    let plain : Artifact := { kind := .plain, baseName := "app", version := "1" }
    let shaded : Artifact := { kind := .shaded, baseName := "app", version := "1" }
    ∃ variants plan,
      Json.decode (Json.decodeList Variant.decode)
        ("[\x7b\"name\":\"apiElements\",\"artifacts\":[" ++
        "\x7b\"kind\":\"plain\",\"baseName\":\"app\",\"version\":\"1\",\"classifier\":null\x7d," ++
        "\x7b\"kind\":\"auxiliary\",\"baseName\":\"other\",\"version\":\"1\"," ++
        "\"classifier\":\"\"\x7d]\x7d]") = .ok variants ∧
      planPublication variants plain shaded .signShaded {} = .ok plan ∧
      ∃ v ∈ plan.variants, v.unnamed.length = 2 := by
  intro plain shaded
  let other : Artifact :=
    { kind := .auxiliary, baseName := "other", version := "1", classifier := ⟨some ""⟩ }
  let variants : List Variant := [⟨"apiElements", [plain, other]⟩]
  let offered : Variant :=
    ⟨"apiElements", [plain, other, { shaded with classifier := ⟨some "all"⟩ }]⟩
  exact ⟨variants, _, mem_toOption_iff.1 (by decide +kernel), rfl, offered, by decide, by decide⟩

end Vendoring
