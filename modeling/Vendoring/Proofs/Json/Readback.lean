import Vendoring.Json.Decode
import Vendoring.Json.Printer

/-!
# Reading what was written

What is read of a value that was written (`Json.reading`), and that its strings and numbers are read
as they are meant: a string up to its closing quote (`readString_quote`), a number up to where it
ends (`readNumber_digits`).  The text of the string (`StringText.value_ofText`) and the number
(`NumberText.value_ofNat`) are what was written.
-/

namespace Vendoring.Json

/-! ## Strings -/

/-- The characters that are written as a backslash and a letter or sign. -/
def shortened : List Char := ['"', '\\', '\x08', '\t', '\n', '\x0c', '\r']

/-- What stands for a character that was written in a string. -/
def piece (c : Char) : Piece :=
  if c.toNat < 0x20 ∧ c ∉ shortened then .unit c.toNat else .char c

/-- What is read of a text that was written as a string. -/
def StringText.ofText (s : String) : StringText := ⟨s.toList.map piece, none⟩

theorem hexNumber?_hexDigit :
    ∀ n < 0x20, hexNumber? '0' '0' (hexDigit (n / 16)) (hexDigit (n % 16)) = some n := by
  decide

theorem escape_of_notMem_shortened {c : Char} (h : c ∉ shortened) :
    escape c =
      if c.toNat < 0x20 then
        ['\\', 'u', '0', '0', hexDigit (c.toNat / 16), hexDigit (c.toNat % 16)]
      else [c] := by
  have hcode : ∀ d ∈ shortened, c.toNat ≠ d.toNat := by
    intro d hd heq
    exact h (Char.toNat_inj.1 heq ▸ hd)
  simp only [shortened, List.mem_cons, List.not_mem_nil, or_false, not_or] at h
  have hbell : c.toNat ≠ 0x08 := hcode '\x08' (by decide)
  have htab : c.toNat ≠ 0x09 := hcode '\t' (by decide)
  have hfeed : c.toNat ≠ 0x0A := hcode '\n' (by decide)
  have hform : c.toNat ≠ 0x0C := hcode '\x0c' (by decide)
  have hreturn : c.toNat ≠ 0x0D := hcode '\r' (by decide)
  rw [escape, if_neg h.1, if_neg h.2.1, if_neg hbell, if_neg htab, if_neg hfeed, if_neg hform,
    if_neg hreturn]

/-- A character that is neither a quote nor a backslash nor a control character stands for
itself. -/
theorem readString_of_plain {c : Char} (hquote : c ≠ '"') (hbackslash : c ≠ '\\')
    (hcontrol : ¬ c.toNat < 0x20) (read : List Piece) (s : List Char) :
    readString read (c :: s) = readString (.char c :: read) s := by
  rw [readString, if_neg hcontrol]
  · exact hquote
  all_goals
    intros
    contradiction

/-- A character is read as the piece that stands for it. -/
theorem readString_escape (c : Char) (read : List Piece) (s : List Char) :
    readString read (escape c ++ s) = readString (piece c :: read) s := by
  by_cases hshort : c ∈ shortened
  · simp only [shortened, List.mem_cons, List.not_mem_nil, or_false] at hshort
    rcases hshort with rfl | rfl | rfl | rfl | rfl | rfl | rfl <;> rfl
  rw [escape_of_notMem_shortened hshort]
  by_cases hcontrol : c.toNat < 0x20
  · rw [if_pos hcontrol, piece, if_pos ⟨hcontrol, hshort⟩]
    simp only [List.cons_append, List.nil_append, readString, hexNumber?_hexDigit _ hcontrol]
  · have hquote : c ≠ '"' := fun h => hshort (h ▸ by decide)
    have hbackslash : c ≠ '\\' := fun h => hshort (h ▸ by decide)
    rw [if_neg hcontrol, piece, if_neg fun h => hcontrol h.1, List.singleton_append,
      readString_of_plain hquote hbackslash hcontrol]

/-- A written text is read up to its closing quote. -/
theorem readString_flatMap_escape (cs : List Char) (read : List Piece) (rest : List Char) :
    readString read (cs.flatMap escape ++ '"' :: rest) =
      (⟨read.reverse ++ cs.map piece, none⟩, rest) := by
  induction cs generalizing read with
  | nil => simp [readString]
  | cons c cs ih =>
    rw [List.flatMap_cons, List.append_assoc, readString_escape, ih]
    simp

theorem readString_quote (s : String) (rest : List Char) :
    readString [] (s.toList.flatMap escape ++ '"' :: rest) = (.ofText s, rest) :=
  readString_flatMap_escape s.toList [] rest

/-- A code unit that is no half of a pair stands for a character of its own. -/
theorem characters_unit {code : Nat} (h : code < 0xD800) (fault : Option Fault)
    (rest : List Piece) :
    StringText.characters fault (.unit code :: rest) =
      (StringText.characters fault rest).map (Char.ofNat code :: ·) := by
  have htrailing : ¬ StringText.isTrailing code = true := by
    simp only [StringText.isTrailing, Bool.and_eq_true, decide_eq_true_eq]
    omega
  have hleading : ¬ StringText.isLeading code = true := by
    simp only [StringText.isLeading, Bool.and_eq_true, decide_eq_true_eq]
    omega
  -- the equations tell apart whether a second unit follows
  rcases rest with _ | ⟨_ | _, rest⟩
  all_goals
    conv =>
      lhs
      rw [StringText.characters, if_neg htrailing, if_neg hleading]

theorem characters_map_piece (cs : List Char) :
    StringText.characters none (cs.map piece) = .ok cs := by
  induction cs with
  | nil => rfl
  | cons c cs ih =>
    rw [List.map_cons, piece]
    split
    · next h =>
      rw [characters_unit (by omega), ih, Char.ofNat_toNat]
      rfl
    · rw [StringText.characters, ih]
      rfl

/-- A written text is read back. -/
@[simp] theorem StringText.value_ofText (s : String) : (ofText s).value = .ok s := by
  rw [value, ofText, characters_map_piece]
  exact congrArg Except.ok String.ofList_toList

@[simp] theorem StringText.decode_ofText (s : String) : (ofText s).decode = .ok s := by
  rw [decode, value_ofText]
  rfl

/-! ## Numbers -/

/-- A text that goes on with what may follow a value in an array or object, or not at all. -/
def Delimited (rest : List Char) : Prop :=
  ∀ c ∈ rest.head?, isSpace c = true ∨ c ∈ [',', ']', '}']

/-- What is read of a natural number that was written. -/
def NumberText.ofNat (n : Nat) : NumberText :=
  ⟨false, (digits n).filterMap digit?, none, none, none⟩

theorem digit?_digitChar : ∀ d < 10, digit? d.digitChar = some d := by
  decide

theorem isSome_digit?_of_mem_digits {n : Nat} {c : Char} (h : c ∈ digits n) :
    (digit? c).isSome = true := by
  induction n using Nat.strongRecOn with
  | ind n ih =>
    rw [digits, Nat.toDigits_eq_if (by decide)] at h
    split at h
    · next hn =>
      rw [List.mem_singleton.1 h, digit?_digitChar n hn]
      rfl
    · rcases List.mem_append.1 h with h | h
      · exact ih (n / 10) (by omega) h
      · rw [List.mem_singleton.1 h, digit?_digitChar _ (by omega)]
        rfl

/-- The digits of a number are those of its tens and the last one. -/
theorem filterMap_digits (n : Nat) :
    (digits n).filterMap digit? =
      if n < 10 then [n] else (digits (n / 10)).filterMap digit? ++ [n % 10] := by
  rw [digits, Nat.toDigits_eq_if (by decide)]
  split
  · next hn => simp [digit?_digitChar n hn]
  · rw [List.filterMap_append, digits]
    simp [digit?_digitChar (n % 10) (Nat.mod_lt n (by decide))]

/-- The digits of a number are read up to where they end. -/
theorem leadingDigits_digits {rest : List Char} (h : ∀ c ∈ rest.head?, digit? c = none) (n : Nat) :
    leadingDigits (digits n ++ rest) = ((digits n).filterMap digit?, rest) := by
  have hall : ∀ c ∈ digits n, (digit? c).isSome = true := fun c hc => isSome_digit?_of_mem_digits hc
  have htake : rest.takeWhile (digit? · |>.isSome) = [] := by
    cases rest with
    | nil => rfl
    | cons c rest => simp [h c rfl]
  have hdrop : rest.dropWhile (digit? · |>.isSome) = rest := by
    cases rest with
    | nil => rfl
    | cons c rest => simp [h c rfl]
  rw [leadingDigits, List.takeWhile_append_of_pos hall, List.dropWhile_append_of_pos hall, htake,
    hdrop, List.append_nil]

/-- A number other than zero does not begin with the digit zero. -/
theorem exists_digits_eq_cons {n : Nat} (h : n ≠ 0) :
    ∃ d ds, d ≠ 0 ∧ (digits n).filterMap digit? = d :: ds := by
  induction n using Nat.strongRecOn with
  | ind n ih =>
    rw [filterMap_digits]
    split
    · exact ⟨n, [], h, rfl⟩
    · obtain ⟨d, ds, hd, hdigits⟩ := ih (n / 10) (by omega) (by omega)
      rw [hdigits]
      exact ⟨d, _, hd, List.cons_append⟩

/-- **A number that was written is read** up to where it ends. -/
theorem readNumber_digits {rest : List Char} (h : Delimited rest) (n : Nat) :
    readNumber false (digits n ++ rest) = (.ofNat n, rest) := by
  have hrest : ∀ c ∈ rest.head?, digit? c = none ∧ c ≠ '.' ∧ c ≠ 'e' ∧ c ≠ 'E' := by
    intro c hc
    have hmem := h c hc
    simp only [isSpace, Bool.or_eq_true, decide_eq_true_eq, List.mem_cons, List.not_mem_nil,
      or_false] at hmem
    rcases hmem with (((rfl | rfl) | rfl) | rfl) | rfl | rfl | rfl <;> decide
  have hread := leadingDigits_digits (fun c hc => (hrest c hc).1) n
  have hfraction : ∀ t : NumberText, readFraction t rest = (t, rest) := by
    intro t
    cases rest with
    | nil => rfl
    | cons c rest =>
      obtain ⟨-, hpoint, he, hE⟩ := hrest c rfl
      simp [readFraction, readExponent, hpoint, he, hE]
  by_cases hn : n = 0
  · subst hn
    rw [readNumber, hread]
    exact hfraction _
  · obtain ⟨d, ds, hd, hdigits⟩ := exists_digits_eq_cons hn
    rw [readNumber, hread, NumberText.ofNat, hdigits]
    cases d with
    | zero => exact absurd rfl hd
    | succ d => exact hfraction _

theorem Number.collect_concat {value value' d : Nat} {ds : List Nat}
    (h : collect value ds = (value', [])) : collect value (ds ++ [d]) = collect value' [d] := by
  induction ds generalizing value with
  | nil =>
    cases h
    rfl
  | cons e ds ih =>
    rw [collect] at h
    split at h
    · next hfits =>
      rw [List.cons_append, collect, if_pos hfits]
      exact ih h
    · cases h

/-- The digits of a number of 64 bits make the number. -/
theorem Number.collect_digits {n : Nat} (h : n < wordLimit) :
    collect 0 ((digits n).filterMap digit?) = (n, []) := by
  induction n using Nat.strongRecOn with
  | ind n ih =>
    have hlast : ∀ tens, tens * 10 + n % 10 = n → collect tens [n % 10] = (n, []) := by
      intro tens htens
      rw [collect, htens, if_pos h, collect]
    rw [filterMap_digits]
    split
    · next hn => simpa only [Nat.mod_eq_of_lt hn] using hlast 0 (by omega)
    · rw [collect_concat (ih (n / 10) (by omega) (by omega))]
      exact hlast (n / 10) (by omega)

/-- **A number of 64 bits that was written is read back.** -/
theorem NumberText.value_ofNat {n : Nat} (h : n < Number.wordLimit) :
    (ofNat n).value = .ok (.natural n) := by
  simp [value, ofNat, Number.collect_digits h]

/-! ## Values -/

mutual

/-- What is read of a value that was written. -/
def reading : Json → Reading
  | null => .null
  | bool b => .bool b
  | number n => .number (.ofNat n)
  | string s => .string (.ofText s)
  | array items => .array (readingItems items)
  | object members => .object (readingMembers members)

/-- What is read of the items of an array that was written. -/
def readingItems : List Json → Items
  | [] => .closed
  | v :: rest => .item (reading v) (readingItems rest)

/-- What is read of the members of an object that was written. -/
def readingMembers : List (String × Json) → Members
  | [] => .closed
  | (k, v) :: rest => .member (.ofText k) (reading v) (readingMembers rest)

end

/-! ## What is decoded -/

@[simp] theorem decodeString_reading (s : String) : decodeString (reading (.string s)) = .ok s :=
  StringText.decode_ofText s

/-- A number of 32 bits is decoded as what was written. -/
theorem decodeUInt32_reading (n : UInt32) : decodeUInt32 (reading (.number n.toNat)) = .ok n := by
  have hvalue : (NumberText.ofNat n.toNat).value = .ok (.natural n.toNat) :=
    NumberText.value_ofNat (Nat.lt_trans n.toNat_lt (by decide))
  rw [reading, decodeUInt32, hvalue]
  simp [n.toNat_lt_size]

end Vendoring.Json
