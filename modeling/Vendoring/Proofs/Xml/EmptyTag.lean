import Vendoring.Proofs.Xml.Tokens

/-!
# The two spellings of an empty element

An element that holds nothing is written with one tag (`EmptyTag.short`) or with a start tag and an
end tag (`EmptyTag.long`).  The reader asks little of what follows the name in a tag, so little is
asked of it here: whatever stands there, the two spellings are cut off as one token and as two.
-/

namespace Vendoring.Xml

/-- The name of an empty element, and what follows it in the tag. -/
structure EmptyTag where
  name : Name
  behind : List Char
  separated : ∀ c ∈ behind.head?, isSpace c = true
  /-- Every quote in the tag is closed, and no `>` stands outside quotes. -/
  unended : behind.foldlM tagStep none = some none
  noSlash : behind.getLast? ≠ some '/'

/-- The end tag of an element of the given name. -/
def Name.stop (n : Name) : List Char := '<' :: '/' :: (n.characters ++ ['>'])

theorem Name.next_stop (n : Name) (rest : List Char) :
    next '<' ('/' :: (n.characters ++ '>' :: rest)) =
      .ok (⟨.close n.characters, n.stop⟩, rest) := by
  have hname : closingName n.characters = n.characters := by
    simpa using closingName_append n ⟨[], by simp⟩
  show endTag (n.characters ++ '>' :: rest) = _
  rw [endTag, cut_of_foldlM (foldlM_name n) rfl]
  simp only [List.dropLast_concat, hname]
  rfl

namespace EmptyTag

/-- What the tag holds. -/
def inner (t : EmptyTag) : List Char := t.name.characters ++ t.behind

/-- The element as one tag. -/
def short (t : EmptyTag) : List Char := '<' :: (t.inner ++ ['/', '>'])

/-- The start tag of the element. -/
def start (t : EmptyTag) : List Char := '<' :: (t.inner ++ ['>'])

/-- The end tag of the element. -/
def stop (t : EmptyTag) : List Char := t.name.stop

/-- The element as two tags. -/
def long (t : EmptyTag) : List Char := t.start ++ t.stop

/-- The name without its namespace. -/
def localName (t : EmptyTag) : String := String.ofList (Xml.localName t.name.characters)

/-- The tag of an element without attributes. -/
def bare (name : String) (h : name.toList ≠ [] ∧ name.toList.all isTagCharacter = true) :
    EmptyTag where
  name := (Tag.bare name h).name
  behind := []
  separated := by simp
  unended := rfl
  noSlash := by simp

variable (t : EmptyTag)

theorem foldlM_inner : t.inner.foldlM tagStep none = some none := by
  rw [inner, foldlM_append_of_eq (foldlM_name t.name), t.unended]

theorem tagName_inner : tagName t.inner = t.name.characters := by
  have hname : ∀ c ∈ t.name.characters, (!isSpace c) = true := by
    intro c hc
    rw [Bool.not_eq_true']
    exact (isTagCharacter_iff.1 (t.name.valid c hc)).1
  rw [tagName, inner, List.takeWhile_append_of_pos hname]
  cases hbehind : t.behind with
  | nil => simp
  | cons c s =>
    have hc := t.separated c (by rw [hbehind]; rfl)
    simp [hc]

theorem getLast?_inner : t.inner.getLast? ≠ some '/' := by
  intro h
  rw [inner, List.getLast?_append, Option.or_eq_some_iff] at h
  rcases h with h | ⟨-, h⟩
  · exact t.noSlash h
  · exact absurd (t.name.valid _ (List.mem_of_getLast? h)) (by decide)

/-- Behind the `<` of either tag that begins the element, the name begins. -/
theorem next_inner (s : List Char) : next '<' (t.inner ++ s) = openTag (t.inner ++ s) := by
  obtain ⟨c, cs, hname, hc⟩ := t.name.exists_cons
  have hinner : t.inner ++ s = c :: (cs ++ t.behind ++ s) := by
    rw [inner, hname]
    rfl
  rw [hinner, next_eq_openTag hc]

/-- The one tag is the tag of an empty element. -/
theorem next_short (rest : List Char) :
    next '<' (t.inner ++ ('/' :: '>' :: rest)) =
      .ok (⟨.empty t.name.characters, t.short⟩, rest) := by
  have hrun : (t.inner ++ ['/']).foldlM tagStep none = some none := by
    rw [foldlM_append_of_eq t.foldlM_inner]
    rfl
  have hsplit : t.inner ++ ('/' :: '>' :: rest) = t.inner ++ ['/'] ++ '>' :: rest := by simp
  have hlast : (t.inner ++ ['/']).getLast? = some '/' := by simp
  rw [next_inner, openTag, hsplit, cut_of_foldlM hrun rfl]
  simp only [List.dropLast_concat, if_pos hlast, tagName_inner]
  rw [short, List.append_assoc]
  rfl

/-- The first of two tags is a start tag. -/
theorem next_start (rest : List Char) :
    next '<' (t.inner ++ '>' :: rest) = .ok (⟨.start t.name.characters, t.start⟩, rest) := by
  rw [next_inner, openTag, cut_of_foldlM t.foldlM_inner rfl]
  simp only [List.dropLast_concat, if_neg t.getLast?_inner, tagName_inner]
  rfl

/-! ## Lengths -/

/-- What the second spelling has in the place of `/>`. -/
def closing (t : EmptyTag) : List Char := '>' :: t.stop

theorem short_eq : t.short = '<' :: t.inner ++ ['/', '>'] := rfl

theorem long_eq : t.long = '<' :: t.inner ++ t.closing := by
  simp [long, start, closing]

/-- How much longer the element is as two tags. -/
def excess (t : EmptyTag) : Nat := byteLength t.name.characters + 2

theorem byteLength_short : byteLength t.short = byteLength t.inner + 3 := by
  have hopen : '<'.utf8Size = 1 := rfl
  have hend : byteLength ['/', '>'] = 2 := rfl
  rw [short, byteLength_cons, byteLength_append, hopen, hend]
  omega

theorem byteLength_closing : byteLength t.closing = byteLength ['/', '>'] + t.excess := by
  have hopen : '<'.utf8Size = 1 := rfl
  have hmark : '/'.utf8Size = 1 := rfl
  have hclose : '>'.utf8Size = 1 := rfl
  have hend : byteLength ['>'] = 1 := rfl
  have hshort : byteLength ['/', '>'] = 2 := rfl
  simp only [closing, stop, Name.stop, excess, byteLength_cons, byteLength_append, hopen, hmark,
    hclose, hend, hshort]
  omega

theorem byteLength_long : byteLength t.long = byteLength t.short + t.excess := by
  rw [long_eq, short_eq, byteLength_append, byteLength_append, byteLength_closing, Nat.add_assoc]

/-- No line feed is among what is different. -/
theorem feed_notMem_closing : '\n' ∉ t.closing := by
  have hname : '\n' ∉ t.name.characters := fun h => absurd (t.name.valid _ h) (by decide)
  simp [closing, stop, Name.stop, hname]

end EmptyTag

end Vendoring.Xml
