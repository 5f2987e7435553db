import Mathlib.Data.List.Find
import Vendoring.Proofs.Archive.Collisions
import Vendoring.Proofs.Archive.Names

/-!
# Descriptors that are read back

Relocation writes the moved lines of a service descriptor into its text.  They are read back as
they are if each of them is a line (`IsLine`), and otherwise the descriptor does not list what was
written: a comment begins inside a line, or a line feed ends it, or blanks are trimmed off.

Whether a moved line is a line depends on the destination of the rule that moves it.  A package name
may be any text without empty parts, slashes and spaces, so a destination may hold what does not
stand in a line.  But not every such rule does harm: its pattern may be one that no line begins
with, or an earlier rule may be applied wherever it would be (`Decides`).

* `isLine_relocated_iff`: the rules that move lines to lines.
* `read_back_iff_keepsLines`: the rules under which all descriptors are read back.
* `not_readsBack_of_comment`: a valid rule under which a provider is cut off.
-/

namespace Vendoring

open ArchiveEntry (IsLine BeginsLine)

variable {rules : List RelocationRule} {rule : RelocationRule} {name rest : String}

/-! ## Rules that cover a name and more of it -/

namespace RelocationRule

theorem covers_pattern (rule : RelocationRule) : rule.Covers '.' rule.pattern := List.prefix_rfl

/-- A rule that covers a name covers what goes on behind it. -/
theorem Covers.append (h : rule.Covers '.' name)
    (hrest : rest = "" ∨ rest.toList.head? = some '.') : rule.Covers '.' (name ++ rest) := by
  rw [Covers, nameParts_append hrest]
  exact h.trans (List.prefix_append _ _)

/-- A name with one more part is covered by the rules that cover the name, if no pattern has the
part. -/
theorem covers_append_part_iff {part : List Char} (hdot : '.' ∉ part)
    (hfresh : part ∉ nameParts '.' rule.pattern) :
    rule.Covers '.' (name ++ String.ofList ('.' :: part)) ↔ rule.Covers '.' name := by
  have hrest : (String.ofList ('.' :: part)).toList.head? = some '.' := by
    rw [String.toList_ofList, List.head?_cons]
  have hparts : partsBehind '.' (String.ofList ('.' :: part)) = [part] := by
    rw [partsBehind, String.toList_ofList]
    exact List.splitOn_eq_singleton hdot
  refine ⟨fun h => ?_, fun h => h.append (.inr hrest)⟩
  rw [Covers, nameParts_append (.inr hrest), hparts, List.prefix_concat_iff] at h
  rcases h with hall | hfront
  · exact absurd (hall ▸ List.mem_append_right _ (List.mem_singleton_self part)) hfresh
  · exact hfront

/-- Does the rule move every line that it covers to a line? -/
structure KeepsLines (rule : RelocationRule) : Prop where
  front : BeginsLine rule.pattern.toList → BeginsLine rule.destination.toList
  whole : IsLine rule.pattern.toList → IsLine rule.destination.toList

instance (rule : RelocationRule) : Decidable rule.KeepsLines :=
  decidable_of_iff ((BeginsLine rule.pattern.toList → BeginsLine rule.destination.toList) ∧
    (IsLine rule.pattern.toList → IsLine rule.destination.toList))
    ⟨fun h => ⟨h.1, h.2⟩, fun h => ⟨h.1, h.2⟩⟩

/-- A line that the rule covers stays a line when its beginning is replaced. -/
theorem KeepsLines.isLine (h : rule.KeepsLines) (hne : rule.pattern ≠ "")
    (hline : IsLine (rule.pattern ++ rest).toList) : IsLine (rule.destination ++ rest).toList := by
  have hpattern : rule.pattern.toList ≠ [] := fun hnil => hne (String.toList_eq_nil_iff.1 hnil)
  rw [String.toList_append] at hline ⊢
  refine ArchiveEntry.isLine_append (h.front (ArchiveEntry.beginsLine_of_append hpattern hline)) ?_
    hline
  intro hrest
  rw [hrest, List.append_nil] at hline
  exact h.whole hline

end RelocationRule

/-! ## Rules that move lines to lines -/

/-- Is the rule applied to its own pattern, as the first that covers it? -/
def Decides (rules : List RelocationRule) (rule : RelocationRule) : Prop :=
  rules.find? (·.Covers '.' rule.pattern) = some rule

instance (rules : List RelocationRule) (rule : RelocationRule) : Decidable (Decides rules rule) :=
  inferInstanceAs (Decidable (_ = _))

/-- A rule that is applied to a name is applied to its own pattern. -/
theorem decides_of_find? (h : rules.find? (·.Covers '.' (rule.pattern ++ rest)) = some rule)
    (hrest : rest = "" ∨ rest.toList.head? = some '.') : Decides rules rule := by
  obtain ⟨-, before, behind, hsplit, hbefore⟩ := List.find?_eq_some_iff_append.1 h
  refine List.find?_eq_some_iff_append.2
    ⟨decide_eq_true rule.covers_pattern, before, behind, hsplit, fun other hother => ?_⟩
  have hnot := hbefore other hother
  rw [Bool.not_eq_true', decide_eq_false_iff_not] at hnot ⊢
  exact fun hcovers => hnot (hcovers.append hrest)

/-- What a rule that is applied to a name makes of it. -/
theorem relocated_of_find? (hrules : ∀ rule ∈ rules, rule.invalidSide? = none)
    (h : rules.find? (·.Covers '.' (rule.pattern ++ rest)) = some rule)
    (hrest : rest = "" ∨ rest.toList.head? = some '.') :
    relocated rules '.' (rule.pattern ++ rest) = rule.destination ++ rest := by
  have hmove : rule.move? '.' (rule.pattern ++ rest) = some (rule.destination ++ rest) := by
    refine RelocationRule.move?_eq_some_iff.2 ⟨rest, ?_, ?_, hrest⟩ <;> rw [respell_self]
  rw [relocated, relocated?_eq_bind hrules (.inl rfl), h, Option.bind_some, hmove, Option.getD_some]

/-- There is a part of a line that no pattern has. -/
theorem exists_fresh_part (rules : List RelocationRule) :
    ∃ part : List Char, '.' ∉ part ∧ IsLine ('.' :: part) ∧
      ∀ rule ∈ rules, part ∉ nameParts '.' rule.pattern := by
  -- one that is longer than all parts together
  let parts := rules.flatMap fun rule => nameParts '.' rule.pattern
  refine ⟨List.replicate (parts.flatten.length + 1) 'x', ?_, ⟨?_, ⟨?_, ?_⟩, ?_, ?_⟩, ?_⟩
  · simp
  · exact List.cons_ne_nil _ _
  · intro c hc
    obtain rfl : '.' = c := by simpa using hc
    decide
  · intro c hc
    obtain rfl : 'x' = c := by simpa [List.getLast?_cons, List.getLast?_replicate] using hc
    decide
  · simp
  · simp
  · intro rule hrule hpart
    have hmem : List.replicate (parts.flatten.length + 1) 'x' ∈ parts :=
      List.mem_flatMap.2 ⟨rule, hrule, hpart⟩
    have hlength := (List.sublist_flatten_of_mem hmem).length_le
    rw [List.length_replicate] at hlength
    omega

/-- A rule that is applied to its own pattern keeps lines if all lines are moved to lines.  Two lines
show it: the pattern, and the pattern with a part behind it for which no other rule is made. -/
theorem keepsLines_of_decides (hrules : ∀ rule ∈ rules, rule.invalidSide? = none)
    (h : ∀ line : String, IsLine line.toList → IsLine (relocated rules '.' line).toList)
    (hrule : rule ∈ rules) (hdecides : Decides rules rule) : rule.KeepsLines where
  front := by
    intro hfront
    obtain ⟨part, hdot, hpart, hfresh⟩ := exists_fresh_part rules
    have hfind : rules.find? (·.Covers '.' (rule.pattern ++ String.ofList ('.' :: part))) =
        some rule := by
      rw [← hdecides]
      refine List.find?_congr fun other hother => ?_
      exact decide_eq_decide.2 (RelocationRule.covers_append_part_iff hdot (hfresh other hother))
    have hline : IsLine (rule.pattern ++ String.ofList ('.' :: part)).toList := by
      rw [String.toList_append, String.toList_ofList]
      have hbehind : IsLine ([] ++ '.' :: part) := hpart
      exact ArchiveEntry.isLine_append hfront (fun hnil => absurd hnil hpart.ne_nil) hbehind
    have hmoved := h _ hline
    rw [relocated_of_find? hrules hfind (.inr (by rw [String.toList_ofList, List.head?_cons])),
      String.toList_append] at hmoved
    refine ArchiveEntry.beginsLine_of_append (fun hnil => ?_) hmoved
    have hname := (RelocationRule.invalidSide?_eq_none_iff.1 (hrules rule hrule)).2
    exact (RelocationRule.ne_empty_of_isPackageName hname).1 (String.toList_eq_nil_iff.1 hnil)
  whole := by
    intro hwhole
    have hfind : rules.find? (·.Covers '.' (rule.pattern ++ "")) = some rule := by
      rwa [String.append_empty]
    have hmoved := relocated_of_find? hrules hfind (.inl rfl)
    rw [String.append_empty, String.append_empty] at hmoved
    rw [← hmoved]
    exact h _ hwhole

/-- A line is moved to a line if the rules that are applied to their own patterns keep lines. -/
theorem isLine_relocated_of_keepsLines (hrules : ∀ rule ∈ rules, rule.invalidSide? = none)
    (h : ∀ rule ∈ rules, Decides rules rule → rule.KeepsLines) {line : String}
    (hline : IsLine line.toList) : IsLine (relocated rules '.' line).toList := by
  cases hmoved : relocated? rules '.' line with
  | none => rwa [relocated_eq_self hmoved]
  | some moved =>
    rw [relocated, hmoved, Option.getD_some]
    rw [relocated?_eq_bind hrules (.inl rfl), Option.bind_eq_some_iff] at hmoved
    obtain ⟨rule, hfind, hmove⟩ := hmoved
    obtain ⟨rest, rfl, rfl, hrest⟩ := RelocationRule.move?_eq_some_iff.1 hmove
    rw [respell_self] at hfind hline ⊢
    have hrule := List.mem_of_find?_eq_some hfind
    have hname := (RelocationRule.invalidSide?_eq_none_iff.1 (hrules rule hrule)).1
    exact (h rule hrule (decides_of_find? hfind hrest)).isLine
      (RelocationRule.ne_empty_of_isPackageName hname).1 hline

/-- **Rules move all lines to lines exactly if those that are applied to their own patterns do.** -/
theorem isLine_relocated_iff (hrules : ∀ rule ∈ rules, rule.invalidSide? = none) :
    (∀ line : String, IsLine line.toList → IsLine (relocated rules '.' line).toList) ↔
      ∀ rule ∈ rules, Decides rules rule → rule.KeepsLines :=
  ⟨fun h _ hrule hdecides => keepsLines_of_decides hrules h hrule hdecides,
    fun h _ hline => isLine_relocated_of_keepsLines hrules h hline⟩

/-! ## Archives -/

namespace Archive

variable {a : Archive} {m : MergedEntry}

/-- Does every descriptor that stays list after relocation what it listed before, with each line
moved? -/
def ReadsBack (rules : List RelocationRule) (a : Archive) : Prop :=
  ∀ m, Chosen rules a m → m.entry.serviceName?.isSome = true →
    ∃ kept, (relocate rules a).1.get? (m.entry.target rules) = some kept ∧
      kept.entry.textLines = m.entry.textLines.map (relocated rules '.')

/-- A descriptor that stays is read back exactly if all its lines are moved to lines. -/
theorem exists_read_back_iff (hm : Chosen rules a m)
    (hservice : m.entry.serviceName?.isSome = true) :
    (∃ kept, (relocate rules a).1.get? (m.entry.target rules) = some kept ∧
      kept.entry.textLines = m.entry.textLines.map (relocated rules '.')) ↔
    ∀ line ∈ m.entry.textLines, IsLine (relocated rules '.' line).toList := by
  by_cases hrules : rules = []
  · subst hrules
    have hget : (relocate [] a).1.get? (m.entry.target []) = some m :=
      Table.get?_eq_some_iff.2 ⟨hm.mem, (ArchiveEntry.target_nil m.entry).symm⟩
    refine ⟨fun _ line hline => ArchiveEntry.isLine_of_mem_textLines hline, fun _ => ⟨m, hget, ?_⟩⟩
    exact (map_relocated_eq_self fun _ _ => rfl).symm
  · simp only [get?_relocate_of_prevails hrules hm.prevails, Option.some_inj, exists_eq_left',
      MergedEntry.relocate, ArchiveEntry.textLines_relocate_iff hservice]

/-- A descriptor of the project with one line. -/
def descriptorOf (line : String) : MergedEntry :=
  ⟨({ path := "META-INF/services/s" } : ArchiveEntry).withLines [line], .project⟩

/-- The archive with one entry. -/
def single (m : MergedEntry) : Archive := ⟨[m], List.pairwise_singleton _ _⟩

/-- The only entry of an archive stays. -/
theorem chosen_single (rules : List RelocationRule) (m : MergedEntry) : Chosen rules (single m) m :=
  Prevails.chosen ⟨List.mem_singleton_self m, fun _ hm' _ => .inl (List.mem_singleton.1 hm')⟩

/-- A line that is read back from a descriptor of its own is moved to a line. -/
theorem isLine_relocated_of_readsBack {line : String} (hline : IsLine line.toList)
    (h : ReadsBack rules (single (descriptorOf line))) :
    IsLine (relocated rules '.' line).toList := by
  have hlines : (descriptorOf line).entry.textLines = [line] :=
    ArchiveEntry.textLines_withLines _ fun line' hline' => List.mem_singleton.1 hline' ▸ hline
  have hservice : (descriptorOf line).entry.serviceName?.isSome = true := by
    change ({ path := "META-INF/services/s" } : ArchiveEntry).serviceName?.isSome = true
    decide +kernel
  have hchosen := chosen_single rules (descriptorOf line)
  refine (exists_read_back_iff hchosen hservice).1 (h _ hchosen hservice) line ?_
  rw [hlines]
  exact List.mem_singleton_self line

/-- **Descriptors that are read back.**  The descriptors of an archive that stay list what they
listed before, each line moved, exactly if all these lines are moved to lines; and valid rules do
this for every archive exactly if those that are applied to their own patterns move lines to
lines. -/
theorem read_back_iff_keepsLines (hrules : ∀ rule ∈ rules, rule.invalidSide? = none) :
    (∀ a, ReadsBack rules a ↔ ∀ m, Chosen rules a m → m.entry.serviceName?.isSome = true →
      ∀ line ∈ m.entry.textLines, IsLine (relocated rules '.' line).toList) ∧
    ((∀ a, ReadsBack rules a) ↔ ∀ rule ∈ rules, Decides rules rule → rule.KeepsLines) := by
  have hentries : ∀ a, ReadsBack rules a ↔ ∀ m, Chosen rules a m →
      m.entry.serviceName?.isSome = true →
      ∀ line ∈ m.entry.textLines, IsLine (relocated rules '.' line).toList := fun a =>
    forall_congr' fun m => forall_congr' fun hm => forall_congr' fun hservice =>
      exists_read_back_iff hm hservice
  refine ⟨hentries, ?_⟩
  rw [← isLine_relocated_iff hrules]
  constructor
  · intro h line hline
    exact isLine_relocated_of_readsBack hline (h (single (descriptorOf line)))
  · intro h a
    rw [hentries]
    exact fun m _ _ line hline => h line (ArchiveEntry.isLine_of_mem_textLines hline)

/-- Rules of which the second, whose destination cannot stand in a line, is never applied. -/
def coveredComment : List RelocationRule :=
  [⟨"org.lib", "shaded"⟩, ⟨"org.lib.codec", "shaded#1"⟩]

/-- Under these rules all descriptors of all archives are read back. -/
theorem read_back_iff_keepsLines_of_coveredComment :
    (∀ rule ∈ coveredComment, rule.invalidSide? = none) ∧ ∀ a, ReadsBack coveredComment a := by
  have hrules : ∀ rule ∈ coveredComment, rule.invalidSide? = none := by decide +kernel
  exact ⟨hrules, (read_back_iff_keepsLines hrules).2.2 (by decide +kernel)⟩

/-- A library with a descriptor of one provider. -/
def codecs : Archive :=
  Table.ofList MergedEntry.path
    [⟨{ path := "META-INF/services/org.api.Codec", contents := "org.lib.Plain\n".toUTF8 },
      .dependency ⟨"org.lib", "lib", some "1"⟩⟩]

/-- A valid rule that puts a comment sign into every name that it moves. -/
def numbered : List RelocationRule := [⟨"org.lib", "shaded#1"⟩]

/-- The provider is moved to `shaded#1.Plain`, and what is read back is `shaded`. -/
theorem not_readsBack_of_comment :
    (∀ rule ∈ numbered, rule.invalidSide? = none) ∧ ¬ ReadsBack numbered codecs := by
  refine ⟨by decide +kernel, fun h => ?_⟩
  obtain ⟨m, -, hchosen, hservice, hread, hmoved⟩ : ∃ m ∈ codecs.rows,
      Chosen numbered codecs m ∧ m.entry.serviceName?.isSome = true ∧
      ((relocate numbered codecs).1.get? (m.entry.target numbered)).map (·.entry.textLines) =
        some ["shaded"] ∧
      m.entry.textLines.map (relocated numbered '.') = ["shaded#1.Plain"] := by
    decide +kernel
  obtain ⟨kept, hget, hlines⟩ := h m hchosen hservice
  rw [hget, Option.map_some, hlines, hmoved] at hread
  exact absurd hread (by decide)

end Archive

end Vendoring
