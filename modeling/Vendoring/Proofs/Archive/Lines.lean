import Vendoring.Proofs.Archive.Relocated
import Vendoring.Proofs.Text.Blank
import Vendoring.Proofs.Text.Splitting
import Vendoring.Proofs.Text.Utf8

/-!
# The lines of a service descriptor

What a descriptor says are its lines without comments and without the blanks around them.  Whatever
the bytes of an entry are, `textLines` gives such lines (`isLine_of_mem_textLines`), and lists of
such lines are the ones that are read back from the text which `withLines` makes of them
(`textLines_withLines_iff`).
-/

namespace Vendoring

/-- A name whose separator is replaced by itself is the name. -/
@[simp] theorem respell_self (c : Char) (name : String) : respell c c name = name := by
  have hid : name.toList.map (fun x => if x = c then c else x) = name.toList := by
    conv_rhs => rw [← List.map_id name.toList]
    refine List.map_congr_left fun x _ => ?_
    by_cases h : x = c
    · rw [if_pos h, h, id]
    · rw [if_neg h, id]
  rw [respell, hid, String.ofList_toList]

namespace ArchiveEntry

variable {cs line : List Char}

/-! ## Lines that are all of what they say -/

/-- A line that says something, and nothing apart from it. -/
structure IsLine (line : List Char) : Prop where
  ne_nil : line ≠ []
  trimmed : Text.IsTrimmed line
  noFeed : '\n' ∉ line
  noComment : '#' ∉ line

instance (line : List Char) : Decidable (IsLine line) :=
  decidable_of_iff (line ≠ [] ∧ Text.IsTrimmed line ∧ '\n' ∉ line ∧ '#' ∉ line)
    ⟨fun h => ⟨h.1, h.2.1, h.2.2.1, h.2.2.2⟩, fun h => ⟨h.1, h.2, h.3, h.4⟩⟩

/-- A text that a line may begin with. -/
structure BeginsLine (front : List Char) : Prop where
  ne_nil : front ≠ []
  head : ∀ c ∈ front.head?, Text.isBlank c = false
  noFeed : '\n' ∉ front
  noComment : '#' ∉ front

theorem beginsLine_iff {front : List Char} :
    BeginsLine front ↔
      front ≠ [] ∧ front.head?.all (!Text.isBlank ·) = true ∧ '\n' ∉ front ∧ '#' ∉ front := by
  simp only [Option.all_eq_true, Bool.not_eq_true']
  exact ⟨fun h => ⟨h.ne_nil, h.head, h.noFeed, h.noComment⟩, fun h => ⟨h.1, h.2.1, h.2.2.1, h.2.2.2⟩⟩

instance (front : List Char) : Decidable (BeginsLine front) := decidable_of_iff' _ beginsLine_iff

theorem IsLine.beginsLine (h : IsLine line) : BeginsLine line :=
  ⟨h.ne_nil, h.trimmed.head, h.noFeed, h.noComment⟩

theorem strippedLine_eq_self (h : IsLine line) : strippedLine line = line := by
  have hall : line.takeWhile (· ≠ '#') = line := by
    rw [List.takeWhile_eq_self_iff]
    intro c hc
    exact decide_eq_true fun hcomment => h.noComment (hcomment ▸ hc)
  rw [strippedLine, hall, Text.trimChars_eq_self h.trimmed]

/-- What a piece between line feeds says is a line, if it says something. -/
theorem isLine_strippedLine (hfeed : '\n' ∉ cs) (hne : strippedLine cs ≠ []) :
    IsLine (strippedLine cs) := by
  have hsub : ∀ c ∈ strippedLine cs, c ∈ cs.takeWhile (· ≠ '#') :=
    fun c hc => (Text.trimChars_infix _).subset hc
  refine ⟨hne, Text.isTrimmed_trimChars _, fun hc => ?_, fun hc => ?_⟩
  · exact hfeed ((List.takeWhile_prefix _).subset (hsub _ hc))
  · exact absurd (List.mem_takeWhile_imp (hsub _ hc)) (by decide)

theorem isLine_of_mem_significantLines (h : line ∈ significantLines cs) : IsLine line := by
  rw [significantLines, List.mem_filter, List.mem_map] at h
  obtain ⟨⟨piece, hpiece, rfl⟩, hne⟩ := h
  exact isLine_strippedLine (Text.notMem_of_mem_splitOn hpiece) (by simpa using hne)

/-- **Every line of an entry is all of what it says**, whatever its bytes are. -/
theorem isLine_of_mem_textLines {e : ArchiveEntry} {line : String} (h : line ∈ e.textLines) :
    IsLine line.toList := by
  obtain ⟨chars, hchars, rfl⟩ := List.mem_map.1 h
  rw [String.toList_ofList]
  exact isLine_of_mem_significantLines hchars

/-! ## Writing lines and reading them -/

/-- A line feed ends what is read before it. -/
theorem significantLines_append_feed (cs cs' : List Char) :
    significantLines (cs ++ '\n' :: cs') = significantLines cs ++ significantLines cs' := by
  rw [significantLines, List.splitOn_append_cons_self, List.map_append, List.filter_append]
  rfl

theorem significantLines_nil : significantLines [] = [] := by
  rw [significantLines, List.splitOn_nil]
  rfl

theorem significantLines_eq_singleton (h : IsLine line) : significantLines line = [line] := by
  rw [significantLines, List.splitOn_eq_singleton h.noFeed, List.map_singleton,
    strippedLine_eq_self h, List.filter_cons_of_pos, List.filter_nil]
  simpa using h.ne_nil

theorem significantLines_intercalate {lines : List (List Char)}
    (h : ∀ line ∈ lines, IsLine line) : significantLines (['\n'].intercalate lines) = lines := by
  induction lines with
  | nil => exact significantLines_nil
  | cons line lines ih =>
    have hline := significantLines_eq_singleton (h line (List.mem_cons_self ..))
    have hlines := ih fun line' hmem => h line' (List.mem_cons_of_mem _ hmem)
    cases lines with
    | nil => rw [List.intercalate_singleton, hline]
    | cons next lines =>
      rw [List.intercalate_cons_cons, List.append_assoc, List.singleton_append,
        significantLines_append_feed, hline, hlines, List.singleton_append]

/-- **Lines are read back from the text that is made of them.** -/
theorem textLines_withLines (e : ArchiveEntry) {lines : List String}
    (h : ∀ line ∈ lines, IsLine line.toList) : (e.withLines lines).textLines = lines := by
  have hchars : (joinLines lines).toList =
      ['\n'].intercalate (lines.map String.toList) ++ ['\n'] := by
    rw [joinLines, String.toList_append, String.toList_intercalate]
    rfl
  have hread : significantLines (['\n'].intercalate (lines.map String.toList)) =
      lines.map String.toList := by
    refine significantLines_intercalate fun line hline => ?_
    obtain ⟨text, htext, rfl⟩ := List.mem_map.1 hline
    exact h text htext
  rw [textLines, withLines, Text.decode_toUTF8, hchars, significantLines_append_feed, hread,
    significantLines_nil, List.append_nil, List.map_map]
  calc lines.map (String.ofList ∘ String.toList) = lines.map id :=
        List.map_congr_left fun line _ => String.ofList_toList
    _ = lines := List.map_id lines

/-- Nothing but lines is read back. -/
theorem textLines_withLines_iff {e : ArchiveEntry} {lines : List String} :
    (e.withLines lines).textLines = lines ↔ ∀ line ∈ lines, IsLine line.toList :=
  ⟨fun h _ hline => isLine_of_mem_textLines (h.symm ▸ hline), textLines_withLines e⟩

/-! ## Moving lines -/

variable {front back rest : List Char}

theorem beginsLine_of_append (hne : front ≠ []) (h : IsLine (front ++ rest)) :
    BeginsLine front := by
  refine ⟨hne, fun c hc => ?_, ?_, ?_⟩
  · refine h.trimmed.head c ?_
    rwa [List.head?_append_of_ne_nil _ hne]
  · exact fun hc => h.noFeed (List.mem_append_left _ hc)
  · exact fun hc => h.noComment (List.mem_append_left _ hc)

/-- A line whose beginning is replaced is a line again if the new one may begin a line, and is one
itself where nothing stands behind it. -/
theorem isLine_append (hback : BeginsLine back) (hwhole : rest = [] → IsLine back)
    (h : IsLine (front ++ rest)) : IsLine (back ++ rest) := by
  by_cases hrest : rest = []
  · rw [hrest, List.append_nil]
    exact hwhole hrest
  refine ⟨List.append_ne_nil_of_left_ne_nil hback.ne_nil rest, ⟨?_, ?_⟩, ?_, ?_⟩
  · intro c hc
    rw [List.head?_append_of_ne_nil _ hback.ne_nil] at hc
    exact hback.head c hc
  · intro c hc
    refine h.trimmed.last c ?_
    rwa [List.getLast?_append_of_ne_nil _ hrest] at hc ⊢
  · rw [List.mem_append, not_or]
    exact ⟨hback.noFeed, fun hc => h.noFeed (List.mem_append_right _ hc)⟩
  · rw [List.mem_append, not_or]
    exact ⟨hback.noComment, fun hc => h.noComment (List.mem_append_right _ hc)⟩

/-- A line that is moved by rules to lines is a line. -/
theorem isLine_relocated {rules : List RelocationRule} {name : String} (h : IsLine name.toList)
    (hrules : ∀ rule ∈ rules, IsLine rule.destination.toList) :
    IsLine (relocated rules '.' name).toList := by
  rw [relocated]
  cases hmoved : relocated? rules '.' name with
  | none => exact h
  | some moved =>
    obtain ⟨rule, hrule, hmove⟩ := List.exists_of_findSome?_eq_some hmoved
    obtain ⟨rest, rfl, rfl, -⟩ := RelocationRule.move?_eq_some_iff.1 hmove
    rw [String.toList_append] at h
    rw [Option.getD_some, String.toList_append, respell_self]
    exact isLine_append (hrules rule hrule).beginsLine (fun _ => hrules rule hrule) h

end ArchiveEntry

end Vendoring
