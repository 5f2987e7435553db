import Vendoring.Proofs.Coordinate.Written
import Vendoring.Proofs.Json.Records

/-!
# Decoding written coordinates

A coordinate is written as a JSON string of its text, and decoded as the text is read.  So what was
decoded is decoded again from its written form under the condition under which it is read back, and
the same holds of the dependencies of settings and of settings as a whole, in which nothing else can
be lost.

* `ShadeSettings.isRead_of_decode`: the dependencies of decoded settings were read from texts.
* `Coordinate.read_back_iff`: what is read back, and decoded again.
-/

namespace Vendoring

open Json (coordinateOf decodeCoordinate decodeList decodeString)

namespace Coordinate

variable {c : Coordinate} {s : String}

theorem coordinateOf_eq_ok_iff : coordinateOf s = .ok c ↔ parse? s = some c := by
  rw [coordinateOf]
  cases parse? s <;> simp

/-- Was a coordinate read from some text? -/
def IsRead (c : Coordinate) : Prop := ∃ s, parse? s = some c

/-- A coordinate that is decoded was read from the text that stands there. -/
theorem isRead_of_decodeCoordinate {r : Json.Reading} (h : decodeCoordinate r = .ok c) :
    c.IsRead := by
  obtain ⟨s, -, hs⟩ := bind_eq_ok_iff.1 h
  exact ⟨s, coordinateOf_eq_ok_iff.1 hs⟩

/-- A coordinate that was written is decoded as it is read. -/
theorem decodeCoordinate_reading (c : Coordinate) :
    decodeCoordinate c.toJson.reading = coordinateOf c.text := by
  rw [decodeCoordinate, toJson, Json.decodeString_reading]
  rfl

theorem decodeCoordinate_reading_eq_ok_iff (h : c.IsRead) :
    decodeCoordinate c.toJson.reading = .ok c ↔ ¬ c.EndsBlank := by
  obtain ⟨s, hs⟩ := h
  rw [decodeCoordinate_reading, coordinateOf_eq_ok_iff, parse?_text_iff hs]

/-- Coordinates that were read are decoded again from their list if none ends with a blank. -/
theorem decodeList_reading_eq_ok_iff {cs : List Coordinate} (h : ∀ c ∈ cs, c.IsRead) :
    decodeList decodeCoordinate (Json.reading (.array (cs.map toJson))) = .ok cs ↔
      ∀ c ∈ cs, ¬ c.EndsBlank := by
  rw [Json.decodeList_eq_ok_iff]
  refine forall₂_congr fun c hc => ?_
  exact decodeCoordinate_reading_eq_ok_iff (h c hc)

end Coordinate

/-- The dependencies of settings that are decoded were read. -/
theorem ShadeSettings.isRead_of_decode {s : String} {settings : ShadeSettings}
    (h : Json.decode decode s = .ok settings) : ∀ c ∈ settings.dependencies, c.IsRead := by
  obtain ⟨r, hr⟩ := Json.exists_of_decode h
  have hkept : Json.Keeps fields fun settings : ShadeSettings =>
      ∀ c ∈ settings.dependencies, c.IsRead := by
    -- no other field touches the dependencies
    refine Json.keeps_cons ?_ (Json.keeps_cons ?_ (Json.keeps_cons ?_ (Json.keeps_cons ?_
      (Json.keeps_cons ?_ (Json.keeps_cons ?_ (Json.keeps_cons ?_ Json.keeps_nil))))))
    case refine_2 =>
      intro settings r ks _ hks
      exact Json.forall_mem_of_decodeList
        (fun r c hc => Coordinate.isRead_of_decodeCoordinate hc) hks
    all_goals
      intro settings r b hsettings _
      exact hsettings
  refine Json.decodeRecord_keeps hkept ?_ hr
  simp

namespace Coordinate

/-- **What was read is read back** from its written form, and decoded again from its JSON text,
exactly if it does not end with a blank: a coordinate, the dependencies of settings, and settings as
a whole. -/
theorem read_back_iff (s : String) :
    (∀ c, parse? s = some c → (parse? c.text = some c ↔ ¬ c.EndsBlank)) ∧
    (∀ c, Json.decode decodeCoordinate s = .ok c →
      (Json.decode decodeCoordinate c.toJson.compact = .ok c ↔ ¬ c.EndsBlank)) ∧
    ∀ settings, Json.decode ShadeSettings.decode s = .ok settings →
      (Json.decode (decodeList decodeCoordinate)
          (Json.array (settings.dependencies.map toJson)).compact = .ok settings.dependencies ↔
        ∀ c ∈ settings.dependencies, ¬ c.EndsBlank) ∧
      (Json.decode ShadeSettings.decode settings.toJson.compact = .ok settings ↔
        ∀ c ∈ settings.dependencies, ¬ c.EndsBlank) := by
  refine ⟨fun c h => parse?_text_iff h, fun c h => ?_, fun settings h => ⟨?_, ?_⟩⟩
  · obtain ⟨r, hr⟩ := Json.exists_of_decode h
    rw [Json.decode_compact]
    exact decodeCoordinate_reading_eq_ok_iff (isRead_of_decodeCoordinate hr)
  · rw [Json.decode_compact]
    exact decodeList_reading_eq_ok_iff (ShadeSettings.isRead_of_decode h)
  · rw [Json.decode_compact, ShadeSettings.decode_reading, map_eq_ok_iff,
      ← decodeList_reading_eq_ok_iff (ShadeSettings.isRead_of_decode h)]
    constructor
    · rintro ⟨dependencies, hdependencies, heq⟩
      rw [← heq] at hdependencies ⊢
      exact hdependencies
    · intro hdependencies
      exact ⟨settings.dependencies, hdependencies, rfl⟩

/-- A coordinate with blanks around its colon. -/
def apart : Coordinate := ⟨"a ", " b", none⟩

/-- Blanks inside a coordinate are read back. -/
theorem read_back_of_apart :
    (parse? " a : b" = some apart ∧ parse? apart.text = some apart) ∧
    (Json.decode decodeCoordinate "\"a : b:\"" = .ok apart ∧
      Json.decode decodeCoordinate apart.toJson.compact = .ok apart) ∧
    Json.decode ShadeSettings.decode "\x7b\"dependencies\":[\"a : b\"]\x7d" =
        .ok { dependencies := [apart] } ∧
      Json.decode (decodeList decodeCoordinate) (Json.array ([apart].map toJson)).compact =
        .ok [apart] ∧
      Json.decode ShadeSettings.decode (ShadeSettings.toJson { dependencies := [apart] }).compact =
        .ok { dependencies := [apart] } := by
  have hread : parse? " a : b" = some apart := by decide +kernel
  have hdecoded : Json.decode decodeCoordinate "\"a : b:\"" = .ok apart :=
    mem_toOption_iff.1 (by decide +kernel)
  have hdependencies : Json.decode ShadeSettings.decode "\x7b\"dependencies\":[\"a : b\"]\x7d" =
      .ok { dependencies := [apart] } := mem_toOption_iff.1 (by decide +kernel)
  have hends : ¬ apart.EndsBlank := by decide +kernel
  have hnone : ∀ c ∈ [apart], ¬ c.EndsBlank := by
    intro c hc
    rw [List.mem_singleton.1 hc]
    exact hends
  have htext := (read_back_iff " a : b").1 apart hread
  have hcoordinate := (read_back_iff "\"a : b:\"").2.1 apart hdecoded
  obtain ⟨hlist, hwhole⟩ := (read_back_iff _).2.2 _ hdependencies
  exact ⟨⟨hread, htext.2 hends⟩, ⟨hdecoded, hcoordinate.2 hends⟩, hdependencies, hlist.2 hnone,
    hwhole.2 hnone⟩

/-- A blank before an empty version is read, but not read back. -/
theorem not_read_back_of_blank_version :
    parse? "a:b :" = some ⟨"a", "b ", none⟩ ∧
      parse? (text ⟨"a", "b ", none⟩) ≠ some ⟨"a", "b ", none⟩ := by
  decide +kernel

end Coordinate

end Vendoring
