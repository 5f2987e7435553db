/-!
# Parts of a text

A text falls into the parts between its separators.  No part has a separator
(`notMem_of_mem_splitOn`), and every other character stands in a part (`exists_mem_splitOn`).

The parts tell the text (`splitOn_inj`).  A text whose first parts are those of another one is the
other one, or goes on behind it with a separator (`splitOn_eq_append_iff`); and the parts do not
depend on which separator stands between them (`splitOn_map_ite`).

A text may also be made of parts with a separator behind each.  It falls into these parts exactly if
none of them has a separator itself (`splitOn_flatMap_append`, `length_splitOn_flatMap_append_iff`).
-/

namespace Vendoring.Text

variable {separator : Char} {cs : List Char}

/-- The parts of a text between separators have none. -/
theorem notMem_of_mem_splitOn {part : List Char} (h : part ∈ cs.splitOn separator) :
    separator ∉ part := by
  induction cs generalizing part with
  | nil =>
    obtain rfl : part = [] := by simpa using h
    exact List.not_mem_nil
  | cons c cs ih =>
    rw [List.splitOn_cons_eq_if_modifyHead] at h
    by_cases hc : c = separator
    · rw [if_pos (by simpa using hc), List.mem_cons] at h
      rcases h with rfl | h
      · exact List.not_mem_nil
      · exact ih h
    · rw [if_neg (by simpa using hc)] at h
      cases hpieces : cs.splitOn separator with
      | nil => exact absurd hpieces (List.splitOn_ne_nil separator cs)
      | cons piece pieces =>
        rw [hpieces] at h ih
        rw [List.modifyHead_cons, List.mem_cons] at h
        rcases h with rfl | h
        · rw [List.mem_cons, not_or]
          exact ⟨fun heq => hc heq.symm, ih (List.mem_cons_self ..)⟩
        · exact ih (List.mem_cons_of_mem _ h)

/-- What a text has between separators stands in one of its parts. -/
theorem exists_mem_splitOn {c : Char} (h : c ∈ cs) (hc : c ≠ separator) :
    ∃ part ∈ cs.splitOn separator, c ∈ part := by
  induction cs with
  | nil => cases h
  | cons d cs ih =>
    rw [List.splitOn_cons_eq_if_modifyHead]
    by_cases hd : d = separator
    · rw [if_pos (by simpa using hd)]
      rcases List.mem_cons.1 h with rfl | h
      · exact absurd hd hc
      · obtain ⟨part, hpart, hmem⟩ := ih h
        exact ⟨part, List.mem_cons_of_mem _ hpart, hmem⟩
    · rw [if_neg (by simpa using hd)]
      cases hpieces : cs.splitOn separator with
      | nil => exact absurd hpieces (List.splitOn_ne_nil separator cs)
      | cons piece pieces =>
        rw [List.modifyHead_cons]
        rcases List.mem_cons.1 h with rfl | h
        · exact ⟨c :: piece, List.mem_cons_self .., List.mem_cons_self ..⟩
        · rw [hpieces] at ih
          obtain ⟨part, hpart, hmem⟩ := ih h
          rcases List.mem_cons.1 hpart with rfl | hpart
          · exact ⟨d :: part, List.mem_cons_self .., List.mem_cons_of_mem _ hmem⟩
          · exact ⟨part, List.mem_cons_of_mem _ hpart, hmem⟩

/-! ## Texts and their parts -/

/-- A text is known by its parts. -/
theorem splitOn_inj {cs' : List Char} : cs.splitOn separator = cs'.splitOn separator ↔ cs = cs' := by
  refine ⟨fun h => ?_, fun h => h ▸ rfl⟩
  calc cs = [separator].intercalate (cs.splitOn separator) :=
        (List.intercalate_splitOn separator).symm
    _ = cs' := by rw [h, List.intercalate_splitOn]

/-- Between parts and more parts stands one more separator. -/
theorem intercalate_append_cons {parts : List (List Char)} (hparts : parts ≠ [])
    (part : List Char) (more : List (List Char)) :
    [separator].intercalate (parts ++ part :: more) =
      [separator].intercalate parts ++ separator :: [separator].intercalate (part :: more) := by
  induction parts with
  | nil => exact absurd rfl hparts
  | cons first parts ih =>
    cases parts with
    | nil =>
      rw [List.singleton_append, List.intercalate_cons_cons, List.intercalate_singleton,
        List.append_assoc, List.singleton_append]
    | cons second parts =>
      have hrest := ih (List.cons_ne_nil second parts)
      rw [List.cons_append] at hrest
      rw [List.cons_append, List.cons_append, List.intercalate_cons_cons, hrest,
        List.intercalate_cons_cons, List.append_assoc, List.append_assoc, List.append_assoc]

/-- The first parts of a text are those of another one exactly if the text is the other one, or goes
on behind it with a separator. -/
theorem splitOn_eq_append_iff {front : List Char} {more : List (List Char)} :
    cs.splitOn separator = front.splitOn separator ++ more ↔
      cs = front ∧ more = [] ∨
        ∃ behind, cs = front ++ separator :: behind ∧ more = behind.splitOn separator := by
  constructor
  · intro h
    cases more with
    | nil =>
      rw [List.append_nil, splitOn_inj] at h
      exact .inl ⟨h, rfl⟩
    | cons part more =>
      have hcs : cs = front ++ separator :: [separator].intercalate (part :: more) := by
        calc cs = [separator].intercalate (cs.splitOn separator) :=
              (List.intercalate_splitOn separator).symm
          _ = front ++ separator :: [separator].intercalate (part :: more) := by
              rw [h, intercalate_append_cons (List.splitOn_ne_nil separator front),
                List.intercalate_splitOn]
      refine .inr ⟨_, hcs, ?_⟩
      rw [hcs, List.splitOn_append_cons_self, List.append_cancel_left_eq] at h
      exact h.symm
  · rintro (⟨rfl, rfl⟩ | ⟨behind, rfl, rfl⟩)
    · rw [List.append_nil]
    · exact List.splitOn_append_cons_self front behind

/-- To put another separator in the place of each leaves the parts of a text as they are, unless the
text has the other one already. -/
theorem splitOn_map_ite {old new : Char} (h : new ∉ cs) :
    (cs.map fun c => if c = old then new else c).splitOn new = cs.splitOn old := by
  induction cs with
  | nil => rw [List.map_nil, List.splitOn_nil, List.splitOn_nil]
  | cons c cs ih =>
    rw [List.mem_cons, not_or] at h
    rw [List.map_cons, List.splitOn_cons_eq_if_modifyHead, List.splitOn_cons_eq_if_modifyHead,
      ih h.2]
    by_cases hc : c = old
    · simp [hc]
    · have hne : ¬ c = new := fun heq => h.1 heq.symm
      simp [hc, hne]

/-! ## Texts with a separator behind each part -/

/-- A text has one part more than separators. -/
theorem length_splitOn (separator : Char) (cs : List Char) :
    (cs.splitOn separator).length = cs.count separator + 1 := by
  induction cs with
  | nil => rfl
  | cons c cs ih =>
    rw [List.splitOn_cons_eq_if_modifyHead, List.count_cons]
    by_cases hc : c = separator
    · simp [hc, ih]
    · simp [hc, ih]

/-- Parts that have no separator are the parts of the text that has one behind each of them. -/
theorem splitOn_flatMap_append {parts : List (List Char)} {last : List Char}
    (h : ∀ part ∈ parts, separator ∉ part) :
    (parts.flatMap (· ++ [separator]) ++ last).splitOn separator =
      parts ++ last.splitOn separator := by
  induction parts with
  | nil => rfl
  | cons part parts ih =>
    rw [List.flatMap_cons, List.append_assoc, List.append_assoc, List.singleton_append,
      List.splitOn_append_cons_self, List.splitOn_eq_singleton (h part (List.mem_cons_self ..)),
      ih fun other hother => h other (List.mem_cons_of_mem _ hother)]
    rfl

/-- A text that has a separator behind each of several parts has as many parts only if they have
none themselves. -/
theorem length_splitOn_flatMap_append_iff {parts : List (List Char)} {last : List Char} :
    ((parts.flatMap (· ++ [separator]) ++ last).splitOn separator).length =
        parts.length + (last.splitOn separator).length ↔
      ∀ part ∈ parts, separator ∉ part := by
  constructor
  · intro h
    have hcount : (parts.flatMap (· ++ [separator])).count separator =
        (parts.map (List.count separator)).sum + parts.length := by
      clear h
      induction parts with
      | nil => rfl
      | cons part parts ih =>
        rw [List.flatMap_cons, List.count_append, ih, List.map_cons, List.sum_cons,
          List.count_append, List.count_singleton_self, List.length_cons]
        omega
    rw [length_splitOn, length_splitOn, List.count_append, hcount] at h
    have hnone : (parts.map (List.count separator)).sum = 0 := by omega
    intro part hpart
    rw [← List.count_eq_zero]
    exact List.sum_eq_zero_iff_forall_eq_nat.1 hnone _ (List.mem_map_of_mem hpart)
  · intro h
    rw [splitOn_flatMap_append h, List.length_append]

end Vendoring.Text
