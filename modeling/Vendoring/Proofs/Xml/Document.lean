import Vendoring.Xml.Reference
import Vendoring.Xml.Token

/-!
# XML documents as trees

A document is a tree of elements together with everything that its spelling leaves open: the
blanks and attributes in tags, the ways to write a character, comments and instructions.  The
conditions that make the spelling well-formed are part of the types, so every document has a
written form and needs no further proviso.  They ask for no more than XML does, and in places for
less.

* `Piece`: what stands in an element besides elements.
* `Content` and `Element`: the tree, of which `Content.text` and `Content.elements` are the views
  that a reader is interested in.
* `Document`: a root element, with pieces that carry no text before and behind it.
-/

namespace Vendoring.Xml

/-! ## Tags -/

/-- Can the character stand in the name of an element or an attribute?  Blanks cannot, and neither
can the characters that markup consists of. -/
def isTagCharacter (c : Char) : Bool :=
  !isSpace c && !(['<', '>', '/', '?', '!', '=', '&', '\'', '"'].contains c)

/-- The name of an element or an attribute. -/
structure Name where
  characters : List Char
  nonempty : characters ≠ []
  valid : ∀ c ∈ characters, isTagCharacter c = true

/-- Blanks in a tag, possibly none. -/
structure Blanks where
  characters : List Char
  valid : ∀ c ∈ characters, isSpace c = true

/-- An attribute with its value in quotes, and at least one blank before it. -/
structure Attribute where
  before : Blanks
  nonempty : before.characters ≠ []
  name : Name
  beforeSign : Blanks
  afterSign : Blanks
  quote : Char
  isQuote : quote = '\'' ∨ quote = '"'
  value : List Char
  valid : quote ∉ value

/-- The written form of an attribute. -/
def Attribute.written (a : Attribute) : List Char :=
  a.before.characters ++ (a.name.characters ++ (a.beforeSign.characters ++
    ('=' :: (a.afterSign.characters ++ (a.quote :: (a.value ++ [a.quote]))))))

/-- The two tags of an element: its name, what else the start tag holds, and the blanks at the end
of either tag. -/
structure Tag where
  name : Name
  attributes : List Attribute
  beforeEnd : Blanks
  closing : Blanks

namespace Tag

/-- What a start tag holds. -/
def inner (t : Tag) : List Char :=
  t.name.characters ++ (t.attributes.flatMap Attribute.written ++ t.beforeEnd.characters)

/-- The start tag. -/
def start (t : Tag) : List Char := '<' :: (t.inner ++ ['>'])

/-- The end tag. -/
def stop (t : Tag) : List Char :=
  '<' :: '/' :: (t.name.characters ++ (t.closing.characters ++ ['>']))

/-- The tags of an element without attributes and blanks. -/
def bare (name : String) (h : name.toList ≠ [] ∧ name.toList.all isTagCharacter = true) : Tag where
  name := ⟨name.toList, h.1, List.all_eq_true.1 h.2⟩
  attributes := []
  beforeEnd := ⟨[], by simp⟩
  closing := ⟨[], by simp⟩

/-- The name without its namespace. -/
def localName (t : Tag) : String := String.ofList (Xml.localName t.name.characters)

end Tag

/-! ## References -/

/-- The predefined entities. -/
inductive Entity
  | lt
  | gt
  | amp
  | apos
  | quot
  deriving DecidableEq

namespace Entity

/-- The name of an entity. -/
def name : Entity → String
  | lt => "lt"
  | gt => "gt"
  | amp => "amp"
  | apos => "apos"
  | quot => "quot"

/-- The character that an entity stands for. -/
def character : Entity → Char
  | lt => '<'
  | gt => '>'
  | amp => '&'
  | apos => '\''
  | quot => '"'

end Entity

/-- A number written with the digits of a base. -/
structure Numeral (base : Nat) where
  digits : List Char
  nonempty : digits ≠ []
  valid : ∀ c ∈ digits, (digitValue? base c).isSome

/-- The number that digits make together with the number before them. -/
def valueFrom (base : Nat) (value : Nat) (digits : List Char) : Nat :=
  digits.foldl (fun value c => value * base + (digitValue? base c).getD 0) value

/-- The value of a numeral. -/
def Numeral.value {base : Nat} (n : Numeral base) : Nat := valueFrom base 0 n.digits

/-- Is the number that of a character which may be written by its number? -/
def IsCharacterCode (code : Nat) : Prop := code ≠ 0 ∧ code.isValidChar

/-- A reference to a character, by the name of an entity or by a number. -/
inductive Reference
  | entity (entity : Entity)
  | decimal (number : Numeral 10) (valid : IsCharacterCode number.value)
  | hexadecimal (number : Numeral 16) (valid : IsCharacterCode number.value)

namespace Reference

/-- What is written between the ampersand and the semicolon. -/
def name : Reference → List Char
  | entity e => e.name.toList
  | decimal n _ => '#' :: n.digits
  | hexadecimal n _ => '#' :: 'x' :: n.digits

/-- The character that a reference stands for. -/
def character : Reference → Char
  | entity e => e.character
  | decimal n _ => Char.ofNat n.value
  | hexadecimal n _ => Char.ofNat n.value

end Reference

/-! ## Pieces -/

/-- What stands in an element besides elements. -/
inductive Piece
  | text (characters : List Char) (valid : ∀ c ∈ characters, isTextCharacter c = true)
  | cdata (characters : List Char) (valid : ¬ "]]>".toList <:+: characters)
  | reference (reference : Reference)
  | comment (characters : List Char) (valid : ¬ "-->".toList <:+: characters)
  | instruction (characters : List Char) (valid : ¬ "?>".toList <:+: '?' :: characters)

namespace Piece

/-- The written form of a piece. -/
def written : Piece → List Char
  | text cs _ => cs
  | cdata cs _ => "<![CDATA[".toList ++ (cs ++ "]]>".toList)
  | reference r => '&' :: (r.name ++ [';'])
  | comment cs _ => "<!--".toList ++ (cs ++ "-->".toList)
  | instruction cs _ => "<?".toList ++ (cs ++ "?>".toList)

/-- The character data of a piece. -/
def characters : Piece → List Char
  | text cs _ => cs
  | cdata cs _ => cs
  | reference r => [r.character]
  | comment _ _ => []
  | instruction _ _ => []

/-- May the piece stand outside the root element?  Blanks, comments and instructions may. -/
def IsOuter : Piece → Prop
  | text cs _ => ∀ c ∈ cs, isSpace c = true
  | cdata _ _ => False
  | reference _ => False
  | comment _ _ => True
  | instruction _ _ => True

end Piece

/-! ## Elements -/

/-- What stands between the tags of an element: pieces and elements in any order.  An element is
given by its tags and what it holds itself. -/
inductive Content
  | nil
  | piece (piece : Piece) (next : Content)
  | element (tag : Tag) (inside next : Content)

/-- An element. -/
structure Element where
  tag : Tag
  content : Content

namespace Content

/-- The written form of what an element holds. -/
def written : Content → List Char
  | nil => []
  | piece p next => p.written ++ next.written
  | element tag inside next => tag.start ++ (inside.written ++ (tag.stop ++ next.written))

/-- The child elements. -/
def elements : Content → List Element
  | nil => []
  | piece _ next => next.elements
  | element tag inside next => ⟨tag, inside⟩ :: next.elements

/-- The character data behind the last child element, or all of it if there is none. -/
def text : Content → List Char
  | nil => []
  | piece p next => if next.elements.isEmpty then p.characters ++ next.text else next.text
  | element _ _ next => next.text

end Content

namespace Element

/-- The written form of an element. -/
def written (e : Element) : List Char := e.tag.start ++ (e.content.written ++ e.tag.stop)

/-- The name without its namespace. -/
def localName (e : Element) : String := e.tag.localName

/-- The character data behind the last child element. -/
def text (e : Element) : List Char := e.content.text

end Element

/-! ## Documents -/

/-- A document with one root element. -/
structure Document where
  before : List Piece
  root : Element
  after : List Piece
  outer : ∀ p ∈ before ++ after, p.IsOuter

/-- The written form of a document. -/
def Document.written (d : Document) : List Char :=
  d.before.flatMap Piece.written ++ (d.root.written ++ d.after.flatMap Piece.written)

/-! ## Lengths -/

theorem foldl_utf8Size (n : Nat) (s : List Char) :
    s.foldl (fun n c => n + c.utf8Size) n = n + byteLength s := by
  induction s generalizing n with
  | nil => rfl
  | cons c s ih =>
    rw [byteLength, List.foldl_cons, List.foldl_cons, ih, ih, Nat.zero_add, Nat.add_assoc]

theorem byteLength_cons (c : Char) (s : List Char) :
    byteLength (c :: s) = c.utf8Size + byteLength s := by
  rw [byteLength, List.foldl_cons, foldl_utf8Size, Nat.zero_add]

theorem byteLength_append (s t : List Char) :
    byteLength (s ++ t) = byteLength s + byteLength t := by
  rw [byteLength, List.foldl_append, foldl_utf8Size]
  rfl

end Vendoring.Xml
