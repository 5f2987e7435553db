import Vendoring.Proofs.Json.Readback

/-!
# Texts of a value

A value has many texts, since any blanks may stand between their tokens (`Spells`).  A text of a
value is read as the value, whatever follows it in an array or object (`readValue_of_spells`), so to
decode it is to decode what is read of the value (`decode_of_spells`), and no lemma about decoders
has to look at characters.  The printer writes texts of the value, on one line (`decode_compact`) or
over several (`decode_pretty`).
-/

namespace Vendoring.Json

/-! ## Blanks -/

/-- Does a text hold nothing but blanks? -/
def Blank (s : List Char) : Prop := ∀ c ∈ s, isSpace c = true

theorem blank_nil : Blank [] := fun _ h => absurd h List.not_mem_nil

theorem skipSpace_append {before : List Char} (h : Blank before) (s : List Char) :
    skipSpace (before ++ s) = skipSpace s :=
  List.dropWhile_append_of_pos h

theorem skipSpace_cons {c : Char} (h : isSpace c = false) (s : List Char) :
    skipSpace (c :: s) = c :: s := by
  simp [skipSpace, h]

/-- Blanks before a value, an item or a member make no difference. -/
theorem readValue_append {before : List Char} (h : Blank before) (fuel : Nat) (s : List Char) :
    readValue fuel (before ++ s) = readValue fuel s := by
  cases fuel with
  | zero => rfl
  | succ fuel => simp only [readValue, skipSpace_append h]

theorem readItems_append {before : List Char} (h : Blank before) (fuel : Nat) (s : List Char) :
    readItems fuel (before ++ s) = readItems fuel s := by
  cases fuel with
  | zero => rfl
  | succ fuel => simp only [readItems, readValue_append h]

theorem readMembers_append {before : List Char} (h : Blank before) (fuel : Nat) (s : List Char) :
    readMembers fuel (before ++ s) = readMembers fuel s := by
  cases fuel with
  | zero => rfl
  | succ fuel => simp only [readMembers, skipSpace_append h]

/-! ## Texts -/

/-- Is a text one of a key and the colon behind it, with blanks? -/
inductive SpellsKey (k : String) : List Char → Prop
  | intro {before gap after : List Char} : Blank before → Blank gap → Blank after →
      SpellsKey k (before ++ (quote k ++ (gap ++ ':' :: after)))

mutual

/-- Is a text one of a value, without blanks at its ends? -/
inductive Spells : Json → List Char → Prop
  | null : Spells .null "null".toList
  | bool (b : Bool) : Spells (.bool b) (if b then "true" else "false").toList
  | number (n : Nat) : Spells (.number n) (digits n)
  | string (s : String) : Spells (.string s) (quote s)
  | noItems {gap : List Char} : Blank gap → Spells (.array []) ('[' :: (gap ++ [']']))
  | items {items : List Json} {s : List Char} :
      SpellsItems items s → Spells (.array items) ('[' :: s)
  | noMembers {gap : List Char} : Blank gap → Spells (.object []) ('{' :: (gap ++ ['}']))
  | members {members : List (String × Json)} {s : List Char} :
      SpellsMembers members s → Spells (.object members) ('{' :: s)

/-- Is a text one of the items of an array, of which there are some, and its end? -/
inductive SpellsItems : List Json → List Char → Prop
  | last {v : Json} {before s after : List Char} : Blank before → Spells v s → Blank after →
      SpellsItems [v] (before ++ (s ++ (after ++ [']'])))
  | more {v : Json} {items : List Json} {before s after t : List Char} : Blank before →
      Spells v s → Blank after → SpellsItems items t →
      SpellsItems (v :: items) (before ++ (s ++ (after ++ ',' :: t)))

/-- Is a text one of the members of an object, of which there are some, and its end? -/
inductive SpellsMembers : List (String × Json) → List Char → Prop
  | last {k : String} {v : Json} {key s after : List Char} : SpellsKey k key → Spells v s →
      Blank after → SpellsMembers [(k, v)] (key ++ (s ++ (after ++ ['}'])))
  | more {k : String} {v : Json} {members : List (String × Json)} {key s after t : List Char} :
      SpellsKey k key → Spells v s → Blank after → SpellsMembers members t →
      SpellsMembers ((k, v) :: members) (key ++ (s ++ (after ++ ',' :: t)))

end

/-- The characters that begin no value but may stand before one or in its place. -/
def interludes : List Char := [' ', '\t', '\n', '\r', ']']

theorem isSpace_eq_false {c : Char} (h : c ∉ interludes) : isSpace c = false := by
  simp only [interludes, List.mem_cons, List.not_mem_nil, or_false, not_or] at h
  simp [isSpace, h]

/-- A digit is none of the characters that mean something else in JSON. -/
theorem notMem_of_digit {c : Char} (h : (digit? c).isSome = true) :
    c ∉ interludes ++ ['"', 'n', 't', 'f', '-', '[', '{'] := by
  have hnone : (interludes ++ ['"', 'n', 't', 'f', '-', '[', '{']).all
      (digit? · |>.isNone) = true := by decide
  intro hmem
  have hc := List.all_eq_true.1 hnone c hmem
  rw [Option.isNone_iff_eq_none] at hc
  rw [hc] at h
  cases h

/-- A number begins with a digit. -/
theorem exists_digits_head (n : Nat) :
    ∃ c cs, digits n = c :: cs ∧ (digit? c).isSome = true := by
  obtain ⟨c, cs, hdigits⟩ := List.exists_cons_of_ne_nil (Nat.toDigits_ne_nil (n := n) (b := 10))
  exact ⟨c, cs, hdigits, isSome_digit?_of_mem_digits (hdigits ▸ List.mem_cons_self ..)⟩

/-- A text of a value begins where a value begins. -/
theorem Spells.exists_eq_cons {v : Json} {s : List Char} (h : Spells v s) :
    ∃ c cs, s = c :: cs ∧ c ∉ interludes := by
  cases h with
  | null => exact ⟨'n', _, rfl, by decide⟩
  | bool b =>
    cases b with
    | false => exact ⟨'f', _, rfl, by decide⟩
    | true => exact ⟨'t', _, rfl, by decide⟩
  | number n =>
    obtain ⟨c, cs, hdigits, hdigit⟩ := exists_digits_head n
    refine ⟨c, cs, hdigits, fun hmem => ?_⟩
    exact notMem_of_digit hdigit (List.mem_append_left _ hmem)
  | string s => exact ⟨'"', _, rfl, by decide⟩
  | noItems _ => exact ⟨'[', _, rfl, by decide⟩
  | items _ => exact ⟨'[', _, rfl, by decide⟩
  | noMembers _ => exact ⟨'{', _, rfl, by decide⟩
  | members _ => exact ⟨'{', _, rfl, by decide⟩

/-- A text of items begins where its first value begins. -/
theorem SpellsItems.exists_eq_append {items : List Json} {s : List Char}
    (h : SpellsItems items s) :
    ∃ before c cs, Blank before ∧ s = before ++ c :: cs ∧ c ∉ interludes := by
  cases h with
  | last hbefore hv _ =>
    obtain ⟨c, cs, rfl, hc⟩ := hv.exists_eq_cons
    exact ⟨_, c, _, hbefore, rfl, hc⟩
  | more hbefore hv _ _ =>
    obtain ⟨c, cs, rfl, hc⟩ := hv.exists_eq_cons
    exact ⟨_, c, _, hbefore, rfl, hc⟩

/-- A text of members begins with a quote. -/
theorem SpellsMembers.exists_eq_append {members : List (String × Json)} {s : List Char}
    (h : SpellsMembers members s) : ∃ before cs, Blank before ∧ s = before ++ '"' :: cs := by
  cases h with
  | last hkey _ _ =>
    obtain ⟨hbefore, _, _⟩ := hkey
    exact ⟨_, _, hbefore, List.append_assoc ..⟩
  | more hkey _ _ _ =>
    obtain ⟨hbefore, _, _⟩ := hkey
    exact ⟨_, _, hbefore, List.append_assoc ..⟩

/-! ## What is read of a text -/

theorem delimited_append {after : List Char} (h : Blank after) {c : Char}
    (hc : c ∈ [',', ']', '}']) (rest : List Char) : Delimited (after ++ c :: rest) := by
  cases after with
  | nil =>
    rintro _ ⟨⟩
    exact .inr hc
  | cons e after =>
    rintro _ ⟨⟩
    exact .inl (h e (List.mem_cons_self ..))

/-- A value that is neither an array nor an object is read from its first character. -/
theorem readValue_of_scalar {c : Char} (hstart : c ∉ interludes) (harray : c ≠ '[')
    (hobject : c ≠ '{') (fuel : Nat) (s : List Char) :
    readValue (fuel + 1) (c :: s) = readScalar c s := by
  rw [readValue, skipSpace_cons (isSpace_eq_false hstart)]
  split
  · next h => cases h
  · next h => exact absurd (List.cons.inj h).1 harray
  · next h => exact absurd (List.cons.inj h).1 hobject
  · next h =>
    obtain ⟨rfl, rfl⟩ := List.cons.inj h
    rfl

section Steps

variable {v : Json} {k : String} {items : List Json} {members : List (String × Json)} {fuel : Nat}
  {before key s after t rest : List Char}

theorem readValue_number (h : Delimited rest) (n fuel : Nat) :
    readValue (fuel + 1) (digits n ++ rest) = (reading (.number n), rest) := by
  obtain ⟨c, cs, hdigits, hdigit⟩ := exists_digits_head n
  have hnot := notMem_of_digit hdigit
  rw [List.mem_append, not_or] at hnot
  obtain ⟨hstart, hother⟩ := hnot
  simp only [List.mem_cons, List.not_mem_nil, or_false, not_or] at hother
  obtain ⟨hquote, hn, ht, hf, hminus, harray, hobject⟩ := hother
  have hread : readScalar c (cs ++ rest) = (reading (.number n), rest) := by
    rw [readScalar, if_pos hdigit, ← List.cons_append, ← hdigits, readNumber_digits h]
    · rfl
    all_goals assumption
  rw [hdigits, List.cons_append, readValue_of_scalar hstart harray hobject, hread]

theorem readValue_string (s : String) (fuel : Nat) (rest : List Char) :
    readValue (fuel + 1) (quote s ++ rest) = (reading (.string s), rest) := by
  have hscalar : quote s ++ rest = '"' :: (s.toList.flatMap escape ++ '"' :: rest) := by
    simp [quote]
  rw [hscalar, readValue_of_scalar (by decide) (by decide) (by decide), readScalar,
    readString_quote]
  rfl

theorem readValue_noItems (h : Blank after) (fuel : Nat) (rest : List Char) :
    readValue (fuel + 1) ('[' :: (after ++ [']']) ++ rest) = (reading (.array []), rest) := by
  have htext : '[' :: (after ++ [']']) ++ rest = '[' :: (after ++ ']' :: rest) := by simp
  rw [htext, readValue, skipSpace_cons (by decide)]
  simp only [skipSpace_append h, skipSpace_cons (show isSpace ']' = false by decide)]
  rfl

theorem readValue_noMembers (h : Blank after) (fuel : Nat) (rest : List Char) :
    readValue (fuel + 1) ('{' :: (after ++ ['}']) ++ rest) = (reading (.object []), rest) := by
  have htext : '{' :: (after ++ ['}']) ++ rest = '{' :: (after ++ '}' :: rest) := by simp
  rw [htext, readValue, skipSpace_cons (by decide)]
  simp only [skipSpace_append h, skipSpace_cons (show isSpace '}' = false by decide)]
  rfl

/-- An array is read if its items are. -/
theorem readValue_items (hitems : SpellsItems items s)
    (h : readItems fuel (s ++ rest) = (readingItems items, rest)) :
    readValue (fuel + 1) ('[' :: s ++ rest) = (reading (.array items), rest) := by
  obtain ⟨before, c, cs, hbefore, rfl, hstart⟩ := hitems.exists_eq_append
  have hclose : c ≠ ']' := fun hc => hstart (hc ▸ by decide)
  rw [List.append_assoc, List.cons_append, readItems_append hbefore] at h
  rw [List.cons_append, List.append_assoc, List.cons_append, readValue,
    skipSpace_cons (by decide)]
  simp only [skipSpace_append hbefore, skipSpace_cons (isSpace_eq_false hstart)]
  split
  · next hnil => cases hnil
  · next hcons => exact absurd (List.cons.inj hcons).1 hclose
  · rw [h]
    rfl

/-- An object is read if its members are. -/
theorem readValue_members (hmembers : SpellsMembers members s)
    (h : readMembers fuel (s ++ rest) = (readingMembers members, rest)) :
    readValue (fuel + 1) ('{' :: s ++ rest) = (reading (.object members), rest) := by
  obtain ⟨before, cs, hbefore, rfl⟩ := hmembers.exists_eq_append
  rw [List.append_assoc, List.cons_append, readMembers_append hbefore] at h
  rw [List.cons_append, List.append_assoc, List.cons_append, readValue,
    skipSpace_cons (by decide)]
  simp only [skipSpace_append hbefore, skipSpace_cons (show isSpace '"' = false by decide)]
  split
  · next hnil => cases hnil
  · next hcons => exact absurd (List.cons.inj hcons).1 (by decide)
  · rw [h]
    rfl

/-- The last item of an array is read if its value is. -/
theorem readItems_last (hbefore : Blank before) (hafter : Blank after)
    (h : readValue fuel (s ++ (after ++ ']' :: rest)) = (reading v, after ++ ']' :: rest)) :
    readItems (fuel + 1) (before ++ (s ++ (after ++ [']'])) ++ rest) =
      (readingItems [v], rest) := by
  have htext : before ++ (s ++ (after ++ [']'])) ++ rest =
      before ++ (s ++ (after ++ ']' :: rest)) := by simp
  rw [htext, readItems_append hbefore, readItems, h]
  simp only [skipSpace_append hafter, skipSpace_cons (show isSpace ']' = false by decide)]
  rfl

/-- Items of an array are read if the first one and the others are. -/
theorem readItems_more (hbefore : Blank before) (hafter : Blank after)
    (h : readValue fuel (s ++ (after ++ ',' :: (t ++ rest))) =
      (reading v, after ++ ',' :: (t ++ rest)))
    (hitems : readItems fuel (t ++ rest) = (readingItems items, rest)) :
    readItems (fuel + 1) (before ++ (s ++ (after ++ ',' :: t)) ++ rest) =
      (readingItems (v :: items), rest) := by
  have htext : before ++ (s ++ (after ++ ',' :: t)) ++ rest =
      before ++ (s ++ (after ++ ',' :: (t ++ rest))) := by simp
  rw [htext, readItems_append hbefore, readItems, h]
  simp only [skipSpace_append hafter, skipSpace_cons (show isSpace ',' = false by decide), hitems]
  rfl

/-- The last member of an object is read if its value is. -/
theorem readMembers_last (hkey : SpellsKey k key) (hafter : Blank after)
    (h : readValue fuel (s ++ (after ++ '}' :: rest)) = (reading v, after ++ '}' :: rest)) :
    readMembers (fuel + 1) (key ++ (s ++ (after ++ ['}'])) ++ rest) =
      (readingMembers [(k, v)], rest) := by
  obtain @⟨before, gap, behind, hbefore, hgap, hbehind⟩ := hkey
  have htext : before ++ (quote k ++ (gap ++ ':' :: behind)) ++ (s ++ (after ++ ['}'])) ++ rest =
      before ++ '"' :: (k.toList.flatMap escape ++
        '"' :: (gap ++ ':' :: (behind ++ (s ++ (after ++ '}' :: rest))))) := by
    simp [quote]
  rw [htext, readMembers_append hbefore, readMembers, skipSpace_cons (by decide)]
  simp only [readString_quote, skipSpace_append hgap,
    skipSpace_cons (show isSpace ':' = false by decide), readValue_append hbehind, h,
    skipSpace_append hafter, skipSpace_cons (show isSpace '}' = false by decide)]
  rfl

/-- Members of an object are read if the first one and the others are. -/
theorem readMembers_more (hkey : SpellsKey k key) (hafter : Blank after)
    (h : readValue fuel (s ++ (after ++ ',' :: (t ++ rest))) =
      (reading v, after ++ ',' :: (t ++ rest)))
    (hmembers : readMembers fuel (t ++ rest) = (readingMembers members, rest)) :
    readMembers (fuel + 1) (key ++ (s ++ (after ++ ',' :: t)) ++ rest) =
      (readingMembers ((k, v) :: members), rest) := by
  obtain @⟨before, gap, behind, hbefore, hgap, hbehind⟩ := hkey
  have htext : before ++ (quote k ++ (gap ++ ':' :: behind)) ++ (s ++ (after ++ ',' :: t)) ++ rest =
      before ++ '"' :: (k.toList.flatMap escape ++
        '"' :: (gap ++ ':' :: (behind ++ (s ++ (after ++ ',' :: (t ++ rest)))))) := by
    simp [quote]
  rw [htext, readMembers_append hbefore, readMembers, skipSpace_cons (by decide)]
  simp only [readString_quote, skipSpace_append hgap,
    skipSpace_cons (show isSpace ':' = false by decide), readValue_append hbehind, h,
    skipSpace_append hafter, skipSpace_cons (show isSpace ',' = false by decide), hmembers]
  rfl

end Steps

mutual

/-- **A text of a value is read as the value**, whatever follows it in an array or object. -/
theorem readValue_of_spells : ∀ {v : Json} {s rest : List Char} {fuel : Nat}, Spells v s →
    Delimited rest → s.length < fuel → readValue fuel (s ++ rest) = (reading v, rest)
  -- every step behind a bracket or a comma has a shorter text before it, so the length of the text
  -- is fuel enough
  | _, _, _, 0, _, _, hfuel => by cases hfuel
  | _, _, _, _ + 1, .null, _, _ => readValue_of_scalar (by decide) (by decide) (by decide) _ _
  | _, _, _, _ + 1, .bool false, _, _ => readValue_of_scalar (by decide) (by decide) (by decide) _ _
  | _, _, _, _ + 1, .bool true, _, _ => readValue_of_scalar (by decide) (by decide) (by decide) _ _
  | _, _, _, fuel + 1, .number n, hrest, _ => readValue_number hrest n fuel
  | _, _, rest, fuel + 1, .string s, _, _ => readValue_string s fuel rest
  | _, _, rest, fuel + 1, .noItems hgap, _, _ => readValue_noItems hgap fuel rest
  | _, _, _, _ + 1, .items hitems, _, hfuel =>
    readValue_items hitems (readItems_of_spells hitems (Nat.lt_of_succ_lt_succ hfuel))
  | _, _, rest, fuel + 1, .noMembers hgap, _, _ => readValue_noMembers hgap fuel rest
  | _, _, _, _ + 1, .members hmembers, _, hfuel =>
    readValue_members hmembers (readMembers_of_spells hmembers (Nat.lt_of_succ_lt_succ hfuel))

/-- A text of items is read up to the end of the array. -/
theorem readItems_of_spells : ∀ {items : List Json} {s rest : List Char} {fuel : Nat},
    SpellsItems items s → s.length < fuel →
      readItems fuel (s ++ rest) = (readingItems items, rest)
  | _, _, _, 0, _, hfuel => by cases hfuel
  | _, _, _, fuel + 1, .last hbefore hv hafter, hfuel => by
    simp only [List.length_append, List.length_cons] at hfuel
    exact readItems_last hbefore hafter
      (readValue_of_spells hv (delimited_append hafter (by decide) _) (by omega))
  | _, _, _, fuel + 1, .more hbefore hv hafter hitems, hfuel => by
    simp only [List.length_append, List.length_cons] at hfuel
    exact readItems_more hbefore hafter
      (readValue_of_spells hv (delimited_append hafter (by decide) _) (by omega))
      (readItems_of_spells hitems (by omega))

/-- A text of members is read up to the end of the object. -/
theorem readMembers_of_spells : ∀ {members : List (String × Json)} {s rest : List Char}
    {fuel : Nat}, SpellsMembers members s → s.length < fuel →
      readMembers fuel (s ++ rest) = (readingMembers members, rest)
  | _, _, _, 0, _, hfuel => by cases hfuel
  | _, _, _, fuel + 1, .last hkey hv hafter, hfuel => by
    simp only [List.length_append, List.length_cons] at hfuel
    exact readMembers_last hkey hafter
      (readValue_of_spells hv (delimited_append hafter (by decide) _) (by omega))
  | _, _, _, fuel + 1, .more hkey hv hafter hmembers, hfuel => by
    simp only [List.length_append, List.length_cons] at hfuel
    exact readMembers_more hkey hafter
      (readValue_of_spells hv (delimited_append hafter (by decide) _) (by omega))
      (readMembers_of_spells hmembers (by omega))

end

/-- **To decode a text of a value is to decode what is read of the value.** -/
theorem decode_of_spells {α : Type} {v : Json} {s : List Char} (h : Spells v s)
    (decoder : Decoder α) : decode decoder (String.ofList s) = decoder v.reading := by
  have hend : Delimited [] := by
    intro c hc
    cases hc
  have hread : readValue (2 * s.length + 1) (s ++ []) = (reading v, []) :=
    readValue_of_spells h hend (by omega)
  rw [List.append_nil] at hread
  rw [decode, String.toList_ofList, Reading.ofChars, hread]
  cases hdecoded : decoder v.reading with
  | error e => simp [hdecoded, bind, Except.bind]
  | ok a => simp [hdecoded, bind, Except.bind, skipSpace, pure, Except.pure]

/-! ## What the printer writes -/

theorem spellsKey_quote (k : String) : SpellsKey k (quote k ++ [':']) :=
  .intro blank_nil blank_nil blank_nil

mutual

/-- The text on one line is a text of the value. -/
theorem spells_written : ∀ v : Json, Spells v (written v)
  | .null => .null
  | .bool b => .bool b
  | .number n => .number n
  | .string s => .string s
  | .array [] => .noItems blank_nil
  | .array (v :: items) => .items (spellsItems_written (v :: items) (List.cons_ne_nil _ _))
  | .object [] => .noMembers blank_nil
  | .object (m :: members) =>
    .members (spellsMembers_written (m :: members) (List.cons_ne_nil _ _))

theorem spellsItems_written : ∀ items : List Json, items ≠ [] →
    SpellsItems items (writtenItems items)
  | [], h => absurd rfl h
  | [v], _ => .last blank_nil (spells_written v) blank_nil
  | v :: w :: items, _ =>
    .more blank_nil (spells_written v) blank_nil
      (spellsItems_written (w :: items) (List.cons_ne_nil _ _))

theorem spellsMembers_written : ∀ members : List (String × Json), members ≠ [] →
    SpellsMembers members (writtenMembers members)
  | [], h => absurd rfl h
  | [(k, v)], _ => by
    have h := SpellsMembers.last (spellsKey_quote k) (spells_written v) blank_nil
    rwa [List.append_assoc] at h
  | (k, v) :: m :: members, _ => by
    have h := SpellsMembers.more (spellsKey_quote k) (spells_written v) blank_nil
      (spellsMembers_written (m :: members) (List.cons_ne_nil _ _))
    rwa [List.append_assoc] at h

end

theorem blank_lineStart (level : Nat) : Blank (lineStart level) := by
  intro c hc
  rcases List.mem_cons.1 hc with rfl | hc
  · rfl
  · rw [List.eq_of_mem_replicate hc]
    rfl

theorem spellsKey_lineStart (level : Nat) (k : String) :
    SpellsKey k (lineStart level ++ (quote k ++ [':', ' '])) :=
  .intro (blank_lineStart level) blank_nil (by simp [Blank, isSpace])

mutual

/-- The text over several lines is a text of the value. -/
theorem spells_layout : ∀ (level : Nat) (v : Json), Spells v (layout level v)
  | _, .null => .null
  | _, .bool b => .bool b
  | _, .number n => .number n
  | _, .string s => .string s
  | _, .array [] => .noItems blank_nil
  | level, .array (v :: items) =>
    .items (spellsItems_layout level (v :: items) (List.cons_ne_nil _ _))
  | _, .object [] => .noMembers blank_nil
  | level, .object (m :: members) =>
    .members (spellsMembers_layout level (m :: members) (List.cons_ne_nil _ _))

theorem spellsItems_layout : ∀ (level : Nat) (items : List Json), items ≠ [] →
    SpellsItems items (layoutItems level items)
  | _, [], h => absurd rfl h
  | level, [v], _ => by
    have h := SpellsItems.last (blank_lineStart (level + 1)) (spells_layout (level + 1) v)
      (blank_lineStart level)
    simpa only [layoutItems, List.append_assoc] using h
  | level, v :: w :: items, _ => by
    have h := SpellsItems.more (blank_lineStart (level + 1)) (spells_layout (level + 1) v)
      blank_nil (spellsItems_layout level (w :: items) (List.cons_ne_nil _ _))
    simpa only [layoutItems, List.append_assoc, List.nil_append] using h

theorem spellsMembers_layout : ∀ (level : Nat) (members : List (String × Json)), members ≠ [] →
    SpellsMembers members (layoutMembers level members)
  | _, [], h => absurd rfl h
  | level, [(k, v)], _ => by
    have h := SpellsMembers.last (spellsKey_lineStart (level + 1) k)
      (spells_layout (level + 1) v) (blank_lineStart level)
    simpa only [layoutMembers, List.append_assoc, List.cons_append, List.nil_append] using h
  | level, (k, v) :: m :: members, _ => by
    have h := SpellsMembers.more (spellsKey_lineStart (level + 1) k)
      (spells_layout (level + 1) v) blank_nil
      (spellsMembers_layout level (m :: members) (List.cons_ne_nil _ _))
    simpa only [layoutMembers, List.append_assoc, List.cons_append, List.nil_append] using h

end

/-- To decode what was written on one line is to decode what is read of the value. -/
theorem decode_compact {α : Type} (decoder : Decoder α) (v : Json) :
    decode decoder v.compact = decoder v.reading :=
  decode_of_spells (spells_written v) decoder

/-- To decode what was written over several lines is to decode what is read of the value. -/
theorem decode_pretty {α : Type} (decoder : Decoder α) (v : Json) :
    decode decoder v.pretty = decoder v.reading :=
  decode_of_spells (spells_layout 0 v) decoder

end Vendoring.Json
