import Vendoring.Coordinate
import Vendoring.Proofs.Text.Blank
import Vendoring.Proofs.Text.Splitting

/-!
# Reading written coordinates

A text that is read as a coordinate is, apart from blanks around it, the written form of the
coordinate; only a colon may follow it, behind which the version is left out (`parse?_eq_some_iff`).
That colon is not written again.  If a blank stands before it, the written form ends with this
blank (`EndsBlank`, `endsBlank_iff_of_parse?`), which is trimmed off when it is read.  So a
coordinate that was read is read back from its written form exactly if its form does not end so
(`parse?_text_iff`), and what is read from a written form is always read back
(`parse?_text_of_parse?_text`).
-/

namespace Vendoring.Coordinate

variable {c : Coordinate} {s : String}

/-! ## Parts -/

/-- The parts of a coordinate between its colons. -/
def parts (c : Coordinate) : List (List Char) :=
  c.group.toList :: c.artifact.toList :: c.version.toList.map String.toList

/-- A coordinate is written as its parts with colons between them. -/
theorem toList_text (c : Coordinate) : c.text.toList = [':'].intercalate c.parts := by
  rcases c with ⟨group, artifact, _ | version⟩
  · simp [text, moduleId, parts, List.intercalate]
  · simp [text, moduleId, parts, List.intercalate]

/-- A coordinate whose parts can be read. -/
structure IsSpelled (c : Coordinate) : Prop where
  ne_nil : ∀ part ∈ c.parts, part ≠ []
  noColon : ∀ part ∈ c.parts, ':' ∉ part

theorem splitOn_text (h : c.IsSpelled) : c.text.toList.splitOn ':' = c.parts := by
  rw [toList_text]
  exact List.splitOn_intercalate ':' h.noColon (List.cons_ne_nil _ _)

/-- Behind the written form of a coordinate a colon begins an empty part. -/
theorem splitOn_text_colon (h : c.IsSpelled) :
    (c.text.toList ++ [':']).splitOn ':' = c.parts ++ [[]] := by
  rw [List.splitOn_append_cons_self, splitOn_text h, List.splitOn_nil]

/-- No written form ends with a colon. -/
theorem toList_text_ne (h : c.IsSpelled) (cs : List Char) : c.text.toList ≠ cs ++ [':'] := by
  intro htext
  have hempty : [] ∈ c.parts := by
    rw [← splitOn_text h, htext, List.splitOn_append_cons_self, List.splitOn_nil]
    simp
  exact h.ne_nil [] hempty rfl

/-- The written form of a coordinate without a version has one colon. -/
theorem count_colon_text (h : c.IsSpelled) (hversion : c.version = none) :
    c.text.toList.count ':' = 1 := by
  have hgroup : ':' ∉ c.group.toList := h.noColon _ (by simp [parts])
  have hartifact : ':' ∉ c.artifact.toList := h.noColon _ (by simp [parts])
  simp [text, moduleId, hversion, List.count_eq_zero_of_not_mem, hgroup, hartifact]

theorem colon_mem_text (c : Coordinate) : ':' ∈ c.text.toList := by
  rcases c with ⟨group, artifact, _ | version⟩ <;> simp [text, moduleId]

theorem ofParts?_eq_some_iff {group artifact version : List Char} :
    ofParts? group artifact version = some c ↔
      group ≠ [] ∧ artifact ≠ [] ∧
        c = ⟨String.ofList group, String.ofList artifact,
          if version.isEmpty then none else some (String.ofList version)⟩ := by
  rw [ofParts?]
  cases group <;> cases artifact <;> simp
  exact eq_comm

/-! ## What is read as a coordinate -/

/-- The parts of a text that is read as a coordinate are those of the coordinate, behind which an
empty one may follow. -/
theorem splitOn_of_parse? (h : parse? s = some c) :
    c.IsSpelled ∧ ((Text.trimChars s.toList).splitOn ':' = c.parts ∨
      c.version = none ∧ (Text.trimChars s.toList).splitOn ':' = c.parts ++ [[]]) := by
  have hcolon : ∀ part ∈ (Text.trimChars s.toList).splitOn ':', ':' ∉ part := by
    intro part hpart
    exact Text.notMem_of_mem_splitOn hpart
  rw [parse?] at h
  split at h
  · next group artifact hsplit =>
    obtain ⟨hgroup, hartifact, rfl⟩ := ofParts?_eq_some_iff.1 h
    rw [hsplit] at hcolon ⊢
    constructor
    · constructor
      · simp [parts, hgroup, hartifact]
      · simpa [parts] using hcolon
    · left
      simp [parts]
  · next group artifact version hsplit =>
    obtain ⟨hgroup, hartifact, rfl⟩ := ofParts?_eq_some_iff.1 h
    rw [hsplit] at hcolon ⊢
    simp only [List.mem_cons, List.not_mem_nil, or_false, forall_eq_or_imp, forall_eq] at hcolon
    cases version with
    | nil =>
      constructor
      · constructor
        · simp [parts, hgroup, hartifact]
        · simp [parts, hcolon]
      · right
        simp [parts]
    | cons v version =>
      constructor
      · constructor
        · simp [parts, hgroup, hartifact]
        · simpa [parts] using hcolon
      · left
        simp [parts]
  · cases h

/-- A coordinate is read from its parts, behind which an empty one may follow. -/
theorem parse?_of_splitOn (h : c.IsSpelled)
    (hsplit : (Text.trimChars s.toList).splitOn ':' = c.parts ∨
      c.version = none ∧ (Text.trimChars s.toList).splitOn ':' = c.parts ++ [[]]) :
    parse? s = some c := by
  have hne := h.ne_nil
  rcases c with ⟨group, artifact, version⟩
  simp only [parts, List.mem_cons, forall_eq_or_imp] at hne hsplit
  obtain ⟨hgroup, hartifact, hversion⟩ := hne
  rcases hsplit with hsplit | ⟨rfl, hsplit⟩
  · cases version with
    | none =>
      simp only [parse?, hsplit, Option.toList_none, List.map_nil]
      apply ofParts?_eq_some_iff.2
      simp [hgroup, hartifact]
    | some version =>
      simp only [parse?, hsplit, Option.toList_some, List.map_cons, List.map_nil]
      apply ofParts?_eq_some_iff.2
      have hwritten : version.toList ≠ [] := hversion _ (by simp)
      simp [hgroup, hartifact, hwritten]
  · simp only [parse?, hsplit, Option.toList_none, List.map_nil, List.cons_append,
      List.nil_append]
    apply ofParts?_eq_some_iff.2
    simp [hgroup, hartifact]

/-- **What is read as a coordinate**: the written form of one that can be read, or that of one
without a version and a colon behind it. -/
theorem parse?_eq_some_iff :
    parse? s = some c ↔
      c.IsSpelled ∧ (Text.trimChars s.toList = c.text.toList ∨
        c.version = none ∧ Text.trimChars s.toList = c.text.toList ++ [':']) := by
  have hjoin : [':'].intercalate ((Text.trimChars s.toList).splitOn ':') =
      Text.trimChars s.toList := List.intercalate_splitOn ':'
  constructor
  · intro h
    obtain ⟨hspelled, hsplit⟩ := splitOn_of_parse? h
    refine ⟨hspelled, ?_⟩
    rcases hsplit with hsplit | ⟨hversion, hsplit⟩
    · left
      rw [← hjoin, hsplit, toList_text]
    · right
      refine ⟨hversion, ?_⟩
      rw [← hjoin, hsplit, toList_text]
      simp [parts, hversion, List.intercalate]
  · rintro ⟨hspelled, htrim | ⟨hversion, htrim⟩⟩
    · apply parse?_of_splitOn hspelled
      left
      rw [htrim, splitOn_text hspelled]
    · apply parse?_of_splitOn hspelled
      right
      exact ⟨hversion, by rw [htrim, splitOn_text_colon hspelled]⟩

/-! ## What is read back -/

/-- Does a coordinate without a version end with a blank? -/
def EndsBlank (c : Coordinate) : Prop :=
  c.version = none ∧ c.artifact.toList.getLast?.any Text.isBlank = true

instance (c : Coordinate) : Decidable c.EndsBlank :=
  inferInstanceAs (Decidable (_ = _ ∧ _ = _))

/-- A coordinate without a version is written with its artifact at the end. -/
theorem getLast?_text (h : c.IsSpelled) (hversion : c.version = none) :
    c.text.toList.getLast? = c.artifact.toList.getLast? := by
  have hne : c.artifact.toList ≠ [] := h.ne_nil _ (by simp [parts])
  have htext : c.text.toList = (c.group.toList ++ [':']) ++ c.artifact.toList := by
    simp [text, moduleId, hversion]
  rw [htext, List.getLast?_append_of_ne_nil _ hne]

theorem endsBlank_iff (h : c.IsSpelled) :
    c.EndsBlank ↔
      c.version = none ∧ ∃ front b, Text.isBlank b = true ∧ c.text.toList = front ++ [b] := by
  refine and_congr_right fun hversion => ?_
  rw [← getLast?_text h hversion, Option.any_eq_true]
  simp only [List.getLast?_eq_some_iff]
  constructor
  · rintro ⟨b, ⟨front, hfront⟩, hb⟩
    exact ⟨front, b, hb, hfront⟩
  · rintro ⟨front, b, hb, hfront⟩
    exact ⟨b, ⟨front, hfront⟩, hb⟩

/-- Only a blank at the end keeps the written form of a coordinate that was read from being
trimmed. -/
theorem isTrimmed_text_iff (h : parse? s = some c) :
    Text.IsTrimmed c.text.toList ↔ ¬ c.EndsBlank := by
  obtain ⟨hspelled, htrim⟩ := parse?_eq_some_iff.1 h
  have htrimmed := Text.isTrimmed_trimChars s.toList
  rw [endsBlank_iff hspelled]
  constructor
  · rintro htext ⟨-, front, b, hblank, hfront⟩
    rw [htext.last b (by simp [hfront])] at hblank
    cases hblank
  · intro hends
    rcases htrim with htrim | ⟨hversion, htrim⟩
    · rw [← htrim]
      exact htrimmed
    · constructor
      · intro b hb
        apply htrimmed.head b
        simp [htrim, Option.mem_def.1 hb]
      · intro b hb
        obtain ⟨front, hfront⟩ := List.getLast?_eq_some_iff.1 hb
        rw [← Bool.not_eq_true]
        intro hblank
        exact hends ⟨hversion, front, b, hblank, hfront⟩

/-- **A coordinate that was read is read back** from its written form, unless this ends with a
blank. -/
theorem parse?_text_iff (h : parse? s = some c) : parse? c.text = some c ↔ ¬ c.EndsBlank := by
  rw [← isTrimmed_text_iff h, parse?_eq_some_iff]
  constructor
  · rintro ⟨-, htrim | ⟨-, htrim⟩⟩
    · rw [← htrim]
      exact Text.isTrimmed_trimChars _
    · -- trimming makes no text longer
      have hlength := (Text.trimChars_infix c.text.toList).length_le
      rw [htrim, List.length_append, List.length_singleton] at hlength
      omega
  · intro htrimmed
    exact ⟨(parse?_eq_some_iff.1 h).1, .inl (Text.trimChars_eq_self htrimmed)⟩

/-- A coordinate ends with a blank if it was written with a blank before its last colon and with
nothing behind that. -/
theorem endsBlank_iff_of_parse? (h : parse? s = some c) :
    c.EndsBlank ↔ ∃ front b, Text.isBlank b = true ∧
      Text.trimChars s.toList = front ++ [b, ':'] := by
  obtain ⟨hspelled, htrim⟩ := parse?_eq_some_iff.1 h
  constructor
  · intro hends
    rcases htrim with htrim | ⟨hversion, htrim⟩
    · have htrimmed := Text.isTrimmed_trimChars s.toList
      rw [htrim, isTrimmed_text_iff h] at htrimmed
      exact absurd hends htrimmed
    · obtain ⟨-, front, b, hblank, hfront⟩ := (endsBlank_iff hspelled).1 hends
      exact ⟨front, b, hblank, by simp [htrim, hfront]⟩
  · rintro ⟨front, b, hblank, hfront⟩
    have hcolon : Text.trimChars s.toList = (front ++ [b]) ++ [':'] := by
      simp [hfront]
    rcases htrim with htrim | ⟨hversion, htrim⟩
    · exact absurd (htrim.symm.trans hcolon) (toList_text_ne hspelled _)
    · have hwritten : c.text.toList = front ++ [b] := by
        rw [htrim] at hcolon
        exact List.append_cancel_right hcolon
      exact (endsBlank_iff hspelled).2 ⟨hversion, front, b, hblank, hwritten⟩

/-- What is read from the written form of a coordinate that was read is read back. -/
theorem parse?_text_of_parse?_text {c' : Coordinate} (h : parse? s = some c)
    (h' : parse? c.text = some c') : parse? c'.text = some c' := by
  rw [parse?_text_iff h', ← isTrimmed_text_iff h']
  obtain ⟨hspelled, htrim⟩ := parse?_eq_some_iff.1 h
  obtain ⟨-, htrim' | ⟨-, htrim'⟩⟩ := parse?_eq_some_iff.1 h'
  · rw [← htrim']
    exact Text.isTrimmed_trimChars _
  rcases htrim with htrim | ⟨hversion, -⟩
  · -- the written form is trimmed, so it is all that is read, and ends with no colon
    rw [← htrim, Text.trimChars_eq_self (Text.isTrimmed_trimChars _), htrim] at htrim'
    exact absurd htrim' (toList_text_ne hspelled _)
  · -- only one colon was written, but two were read
    have hcount := (Text.trimChars_infix c.text.toList).sublist.count_le ':'
    have hcolon := List.count_pos_iff.2 (colon_mem_text c')
    rw [count_colon_text hspelled hversion, htrim', List.count_append,
      List.count_singleton_self] at hcount
    omega

end Vendoring.Coordinate
