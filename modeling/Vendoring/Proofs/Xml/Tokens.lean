import Vendoring.Proofs.Xml.Cut
import Vendoring.Proofs.Xml.Document

/-!
# The tokens of written documents

Each part of a written document is cut off as one token, whatever follows it: `next_start` and
`next_stop` for the tags of an element, `next_cdata`, `next_reference`, `next_comment` and
`next_instruction` for pieces.  Text is different, since a token of text ends only where the text
does; what holds of it is said where it is taken in.
-/

namespace Vendoring.Xml

/-! ## Tags -/

theorem isTagCharacter_iff {c : Char} :
    isTagCharacter c = true ↔ isSpace c = false ∧
      c ∉ ['<', '>', '/', '?', '!', '=', '&', '\'', '"'] := by
  simp [isTagCharacter]

/-- Neither a blank nor a character of a name ends a tag or opens a quoted value. -/
theorem plain_of_isSpace {c : Char} (h : isSpace c = true) : c ≠ '>' ∧ c ≠ '\'' ∧ c ≠ '"' := by
  refine ⟨?_, ?_, ?_⟩ <;> rintro rfl <;> exact absurd h (by decide)

theorem plain_of_isTagCharacter {c : Char} (h : isTagCharacter c = true) :
    c ≠ '>' ∧ c ≠ '\'' ∧ c ≠ '"' := by
  refine ⟨?_, ?_, ?_⟩ <;> rintro rfl <;> exact absurd h (by decide)

theorem Name.exists_cons (n : Name) :
    ∃ c cs, n.characters = c :: cs ∧ isTagCharacter c = true := by
  obtain ⟨c, cs, hcs⟩ := List.exists_cons_of_ne_nil n.nonempty
  exact ⟨c, cs, hcs, n.valid c (by rw [hcs]; exact List.mem_cons_self ..)⟩

theorem foldlM_name (n : Name) : n.characters.foldlM tagStep none = some none :=
  foldlM_tagStep_of_plain fun c hc => plain_of_isTagCharacter (n.valid c hc)

theorem foldlM_blanks (b : Blanks) : b.characters.foldlM tagStep none = some none :=
  foldlM_tagStep_of_plain fun c hc => plain_of_isSpace (b.valid c hc)

/-- The search for the end of a tag gets through an attribute. -/
theorem foldlM_attribute (a : Attribute) : a.written.foldlM tagStep none = some none := by
  have hsign : tagStep none '=' = some none := rfl
  have hopen : tagStep none a.quote = some (some a.quote) := by
    rcases a.isQuote with h | h <;> rw [h] <;> rfl
  have hclose : tagStep (some a.quote) a.quote = some none := by simp [tagStep]
  simp only [Attribute.written, List.foldlM_append, List.foldlM_cons, List.foldlM_nil,
    foldlM_blanks, foldlM_name, hsign, hopen, foldlM_tagStep_of_quoted a.valid, hclose,
    Option.bind_eq_bind, Option.bind_some, Option.pure_def]

/-- The search for the end of a tag gets through all that a start tag holds. -/
theorem foldlM_inner (t : Tag) : t.inner.foldlM tagStep none = some none := by
  have hattributes : ∀ as : List Attribute,
      (as.flatMap Attribute.written).foldlM tagStep none = some none := by
    intro as
    induction as with
    | nil => rfl
    | cons a as ih =>
      rw [List.flatMap_cons, foldlM_append_of_eq (foldlM_attribute a), ih]
  rw [Tag.inner, foldlM_append_of_eq (foldlM_name t.name),
    foldlM_append_of_eq (hattributes t.attributes), foldlM_blanks]

/-- Behind the name of a start tag there is nothing or a blank. -/
theorem isSpace_of_behind_name (t : Tag) :
    ∀ c ∈ (t.attributes.flatMap Attribute.written ++ t.beforeEnd.characters).head?,
      isSpace c = true := by
  intro c hc
  cases has : t.attributes with
  | nil =>
    rw [has, List.flatMap_nil, List.nil_append] at hc
    exact t.beforeEnd.valid c (List.mem_of_mem_head? hc)
  | cons a as =>
    obtain ⟨b, bs, hb⟩ := List.exists_cons_of_ne_nil a.nonempty
    rw [has, List.flatMap_cons, Attribute.written, hb] at hc
    obtain rfl : b = c := by simpa using hc
    exact a.before.valid b (by rw [hb]; exact List.mem_cons_self ..)

/-- The name in a start tag is that of the element. -/
theorem tagName_inner (t : Tag) : tagName t.inner = t.name.characters := by
  have hname : ∀ c ∈ t.name.characters, (!isSpace c) = true := by
    intro c hc
    rw [Bool.not_eq_true']
    exact (isTagCharacter_iff.1 (t.name.valid c hc)).1
  rw [tagName, Tag.inner, List.takeWhile_append_of_pos hname]
  have hbehind := isSpace_of_behind_name t
  generalize t.attributes.flatMap Attribute.written ++ t.beforeEnd.characters = s at hbehind
  cases s with
  | nil => simp
  | cons c s => simp [hbehind c rfl]

/-- An attribute ends in a quote. -/
theorem getLast?_attribute (a : Attribute) : a.written.getLast? = some a.quote := by
  simp [Attribute.written, List.getLast?_append, List.getLast?_cons]

/-- A start tag does not end like the tag of an empty element. -/
theorem getLast?_inner (t : Tag) : t.inner.getLast? ≠ some '/' := by
  intro h
  rw [Tag.inner, List.getLast?_append, List.getLast?_append] at h
  have hmem : '/' ∈ t.beforeEnd.characters ∨
      (t.attributes.flatMap Attribute.written).getLast? = some '/' ∨
      '/' ∈ t.name.characters := by
    rcases Option.or_eq_some_iff.1 h with h | ⟨-, h⟩
    · rcases Option.or_eq_some_iff.1 h with h | ⟨-, h⟩
      · exact .inl (List.mem_of_getLast? h)
      · exact .inr (.inl h)
    · exact .inr (.inr (List.mem_of_getLast? h))
  rcases hmem with hmem | hlast | hmem
  · exact absurd (t.beforeEnd.valid _ hmem) (by decide)
  · rcases List.eq_nil_or_concat t.attributes with hnil | ⟨as, a, has⟩
    · simp [hnil] at hlast
    · rw [has, List.concat_eq_append, List.flatMap_append, List.flatMap_singleton,
        List.getLast?_append, getLast?_attribute, Option.some_or, Option.some.injEq] at hlast
      rcases a.isQuote with hquote | hquote <;> rw [hquote] at hlast <;>
        exact absurd hlast (by decide)
  · exact absurd (t.name.valid _ hmem) (by decide)

/-- A tag whose first character is no mark is a start tag or the tag of an empty element. -/
theorem next_eq_openTag {c : Char} (h : isTagCharacter c = true) (s : List Char) :
    next '<' (c :: s) = openTag (c :: s) := by
  have hmark : c ∉ ['<', '>', '/', '?', '!', '=', '&', '\'', '"'] := (isTagCharacter_iff.1 h).2
  simp only [List.mem_cons, not_or] at hmark
  obtain ⟨-, -, hslash, hquestion, hbang, -⟩ := hmark
  unfold next
  simp only
  split <;> simp_all

/-- A start tag is cut off as one token. -/
theorem next_start (t : Tag) (rest : List Char) :
    next '<' (t.inner ++ '>' :: rest) = .ok (⟨.start t.name.characters, t.start⟩, rest) := by
  have hopen : openTag (t.inner ++ '>' :: rest) =
      .ok (⟨.start t.name.characters, t.start⟩, rest) := by
    rw [openTag, cut_of_foldlM (foldlM_inner t) rfl]
    simp only [List.dropLast_concat, if_neg (getLast?_inner t), tagName_inner, Tag.start]
  obtain ⟨c, cs, hname, hc⟩ := t.name.exists_cons
  have hinner : t.inner ++ '>' :: rest = c :: (cs ++
      (t.attributes.flatMap Attribute.written ++ t.beforeEnd.characters) ++ '>' :: rest) := by
    rw [Tag.inner, hname]
    rfl
  rw [hinner, next_eq_openTag hc, ← hinner, hopen]

/-- The name in an end tag is that of the element. -/
theorem closingName_append (n : Name) (b : Blanks) :
    closingName (n.characters ++ b.characters) = n.characters := by
  have hblanks : ∀ c ∈ b.characters.reverse, isSpace c = true :=
    fun c hc => b.valid c (List.mem_reverse.1 hc)
  have hname : n.characters.reverse ≠ [] := by simpa using n.nonempty
  obtain ⟨c, cs, hcs⟩ := List.exists_cons_of_ne_nil hname
  have hc : isSpace c = false := by
    refine (isTagCharacter_iff.1 (n.valid c ?_)).1
    rw [← List.mem_reverse, hcs]
    exact List.mem_cons_self ..
  have hdrop : (n.characters ++ b.characters).reverse.dropWhile isSpace = c :: cs := by
    rw [List.reverse_append, List.dropWhile_append_of_pos hblanks, hcs, List.dropWhile_cons, hc]
    rfl
  rw [closingName, hdrop]
  simp only
  rw [← hcs, List.reverse_reverse]

/-- An end tag is cut off as one token. -/
theorem next_stop (t : Tag) (rest : List Char) :
    next '<' ('/' :: (t.name.characters ++ (t.closing.characters ++ '>' :: rest))) =
      .ok (⟨.close t.name.characters, t.stop⟩, rest) := by
  have hrun : (t.name.characters ++ t.closing.characters).foldlM tagStep none = some none := by
    rw [foldlM_append_of_eq (foldlM_name t.name), foldlM_blanks]
  have hend : endTag (t.name.characters ++ t.closing.characters ++ '>' :: rest) =
      .ok (⟨.close t.name.characters, t.stop⟩, rest) := by
    rw [endTag, cut_of_foldlM hrun rfl]
    simp only [List.dropLast_concat, closingName_append]
    rw [Tag.stop, List.append_assoc]
  rw [← List.append_assoc]
  exact hend

/-! ## CDATA sections, comments and instructions -/

theorem next_cdata {cs : List Char} (h : ¬ "]]>".toList <:+: cs) (rest : List Char) :
    next '<' ("![CDATA[".toList ++ (cs ++ ("]]>".toList ++ rest))) =
      .ok (⟨.cdata cs, "<![CDATA[".toList ++ (cs ++ "]]>".toList)⟩, rest) := by
  have hcut : cut (doubledStep ']') 0 (cs ++ ("]]>".toList ++ rest)) =
      .ok (cs ++ "]]>".toList, rest) := cut_doubled (by decide) h rest
  have hlength : (cs ++ "]]>".toList).length - 3 = cs.length := by simp
  show cdata ('C' :: 'D' :: 'A' :: 'T' :: 'A' :: '[' :: (cs ++ ("]]>".toList ++ rest))) = _
  rw [cdata, hcut]
  simp only [hlength, List.take_left]

theorem next_comment {cs : List Char} (h : ¬ "-->".toList <:+: cs) (rest : List Char) :
    next '<' ("!--".toList ++ (cs ++ ("-->".toList ++ rest))) =
      .ok (⟨.comment, "<!--".toList ++ (cs ++ "-->".toList)⟩, rest) := by
  have hcut : cut (doubledStep '-') 0 (cs ++ ("-->".toList ++ rest)) =
      .ok (cs ++ "-->".toList, rest) := cut_doubled (by decide) h rest
  show comment ('-' :: (cs ++ ("-->".toList ++ rest))) = _
  rw [comment, hcut]

theorem next_instruction {cs : List Char} (h : ¬ "?>".toList <:+: '?' :: cs) (rest : List Char) :
    next '<' ('?' :: (cs ++ ("?>".toList ++ rest))) =
      .ok (⟨.instruction, "<?".toList ++ (cs ++ "?>".toList)⟩, rest) := by
  have hcut := cut_instruction h rest
  have hlong : cs ++ "?>".toList ≠ ['>'] := by
    intro hshort
    have hlength := congrArg List.length hshort
    simp at hlength
  show instruction (cs ++ ("?>".toList ++ rest)) = _
  simp only [instruction, hcut, if_neg hlong]
  rfl

/-! ## References -/

/-- Digits make a number that is no smaller than the one before them. -/
theorem le_valueFrom {base : Nat} (hbase : 0 < base) (value : Nat) (digits : List Char) :
    value ≤ valueFrom base value digits := by
  induction digits generalizing value with
  | nil => exact Nat.le_refl value
  | cons c digits ih =>
    refine Nat.le_trans ?_ (ih _)
    exact Nat.le_add_right_of_le (Nat.le_mul_of_pos_right value hbase)

/-- Digits are read as the number they make, if it is not too large. -/
theorem readDigits_eq {base : Nat} (hbase : 0 < base) {digits : List Char}
    (hvalid : ∀ c ∈ digits, (digitValue? base c).isSome) {value : Nat}
    (hsmall : valueFrom base value digits < numberLimit) :
    readDigits base value digits = .ok (valueFrom base value digits) := by
  induction digits generalizing value with
  | nil => rfl
  | cons c digits ih =>
    obtain ⟨digit, hdigit⟩ := Option.isSome_iff_exists.1 (hvalid c (List.mem_cons_self ..))
    have hvalue : valueFrom base value (c :: digits) =
        valueFrom base (value * base + digit) digits := by
      simp [valueFrom, hdigit]
    rw [hvalue] at hsmall
    have hstep : value * base + digit < numberLimit :=
      Nat.lt_of_le_of_lt (le_valueFrom hbase _ digits) hsmall
    rw [readDigits, hdigit, hvalue]
    simp only [if_pos hstep]
    exact ih (fun d hd => hvalid d (List.mem_cons_of_mem _ hd)) hsmall

/-- The characters of a numeral are digits and letters. -/
theorem isNameCharacter_of_digit {base : Nat} {c : Char} (h : (digitValue? base c).isSome) :
    isNameCharacter c = true ∧ c ≠ '+' ∧ c ≠ '-' ∧ c ≠ 'x' := by
  refine ⟨?_, ?_, ?_, ?_⟩
  · by_contra hname
    have hmark : c = ';' ∨ c = '&' ∨ c = '<' := by
      simpa [isNameCharacter, or_assoc, imp_iff_not_or] using hname
    rcases hmark with rfl | rfl | rfl <;> exact absurd h (by simp [digitValue?])
  all_goals
    rintro rfl
    exact absurd h (by simp [digitValue?])

/-- A numeral begins with a digit, and not with a sign or the mark of a base. -/
theorem Numeral.exists_cons {base : Nat} (n : Numeral base) :
    ∃ c digits, n.digits = c :: digits ∧ c ≠ '+' ∧ c ≠ '-' ∧ c ≠ 'x' := by
  obtain ⟨c, digits, hdigits⟩ := List.exists_cons_of_ne_nil n.nonempty
  have hc := n.valid c (by rw [hdigits]; exact List.mem_cons_self ..)
  exact ⟨c, digits, hdigits, (isNameCharacter_of_digit hc).2⟩

/-- A numeral is read as its value, if that is the number of a character. -/
theorem readNumber_eq {base : Nat} (hbase : 0 < base) (n : Numeral base)
    (hsmall : n.value < numberLimit) : readNumber base n.digits = .ok n.value := by
  have hread := readDigits_eq hbase n.valid hsmall
  obtain ⟨c, digits, hdigits, hplus, hminus, -⟩ := n.exists_cons
  rw [hdigits, readNumber, if_neg (by simp [hplus, hminus]), ← hdigits, hread]
  rfl

/-- A character code is read as the character. -/
theorem characterOf_eq {code : Nat} (h : IsCharacterCode code) :
    characterOf code = .ok (Char.ofNat code) := by
  obtain ⟨hzero, hvalid⟩ := h
  rw [characterOf, if_neg hzero, dif_pos hvalid, Char.ofNat, dif_pos hvalid]

theorem IsCharacterCode.lt {code : Nat} (h : IsCharacterCode code) : code < numberLimit := by
  have hlimit : numberLimit = 0x100000000 := rfl
  rcases h.2 with h | h
  · omega
  · omega

/-- A reference stands for its character. -/
theorem resolve_name (r : Reference) : resolve r.name = .ok r.character := by
  cases r with
  | entity e => cases e <;> rfl
  | decimal n h =>
    have hread := readNumber_eq (by decide) n h.lt
    obtain ⟨c, digits, hdigits, -, -, hx⟩ := n.exists_cons
    have hnumber : numericCharacter n.digits = (readNumber 10 n.digits).bind characterOf := by
      rw [hdigits, numericCharacter]
      simpa using hx
    show (numericCharacter n.digits).mapError Fault.badCharacter = _
    rw [hnumber, hread]
    show (characterOf n.value).mapError Fault.badCharacter = _
    rw [characterOf_eq h]
    rfl
  | hexadecimal n h =>
    show ((readNumber 16 n.digits).bind characterOf).mapError Fault.badCharacter = _
    rw [readNumber_eq (by decide) n h.lt]
    show (characterOf n.value).mapError Fault.badCharacter = _
    rw [characterOf_eq h]
    rfl

/-- What is written in a reference does not end it. -/
theorem isNameCharacter_of_mem_name (r : Reference) :
    ∀ c ∈ r.name, isNameCharacter c = true := by
  cases r with
  | entity e =>
    have hall : e.name.toList.all isNameCharacter = true := by cases e <;> decide
    exact List.all_eq_true.1 hall
  | decimal n h =>
    intro c hc
    rcases List.mem_cons.1 hc with rfl | hc
    · decide
    · exact (isNameCharacter_of_digit (n.valid c hc)).1
  | hexadecimal n h =>
    intro c hc
    rcases List.mem_cons.1 hc with rfl | hc
    · decide
    · rcases List.mem_cons.1 hc with rfl | hc
      · decide
      · exact (isNameCharacter_of_digit (n.valid c hc)).1

theorem next_reference (r : Reference) (rest : List Char) :
    next '&' (r.name ++ ';' :: rest) =
      .ok (⟨.reference r.name, '&' :: (r.name ++ [';'])⟩, rest) := by
  have hname := isNameCharacter_of_mem_name r
  have htake : (r.name ++ ';' :: rest).takeWhile isNameCharacter = r.name := by
    rw [List.takeWhile_append_of_pos hname]
    simp [isNameCharacter]
  have hdrop : (r.name ++ ';' :: rest).dropWhile isNameCharacter = ';' :: rest := by
    rw [List.dropWhile_append_of_pos hname]
    simp [isNameCharacter]
  show reference (r.name ++ ';' :: rest) = _
  simp only [reference, htake, hdrop]

end Vendoring.Xml
