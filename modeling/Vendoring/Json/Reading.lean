/-!
# Reading JSON texts

A text is read as far as it is JSON.  The result is a tree that keeps strings and numbers as they
are written and marks the place at which the text stops being JSON.  What a reader of values makes
of the tree, and whether it gets as far as that place, is decided afterwards: a value that nobody
asks for may hold what could not be a value.

The main function is `Reading.ofChars`.
-/

namespace Vendoring.Json

/-- How a text fails to be JSON. -/
inductive Fault
  /-- It ends too early. -/
  | unfinished
  /-- It goes on with something else. -/
  | malformed
  deriving DecidableEq

/-- The fault of meeting the given rest of the text where something else is needed. -/
def Fault.at : List Char → Fault
  | [] => unfinished
  | _ :: _ => malformed

/-! ## Strings -/

/-- What stands for a character in a string, or for half of one. -/
inductive Piece
  | char (c : Char)
  /-- An escaped code unit of UTF-16. -/
  | unit (code : Nat)
  deriving DecidableEq

/-- A string as it is written. -/
structure StringText where
  pieces : List Piece
  /-- What keeps the string from its closing quote. -/
  fault : Option Fault
  deriving DecidableEq

namespace StringText

/-- Does a code unit begin a pair? -/
def isLeading (code : Nat) : Bool := 0xD800 ≤ code && code < 0xDC00

/-- Does a code unit end a pair? -/
def isTrailing (code : Nat) : Bool := 0xDC00 ≤ code && code < 0xE000

/-- The characters that pieces stand for; `fault` is what comes behind them.  Code units of pairs
must come in pairs. -/
def characters (fault : Option Fault) : List Piece → Except Fault (List Char)
  | [] =>
    match fault with
    | none => .ok []
    | some f => .error f
  | .char c :: rest => (characters fault rest).map (c :: ·)
  | .unit code :: rest =>
    if isTrailing code then .error .malformed
    else if isLeading code then
      match rest with
      | .unit code' :: rest =>
        if isTrailing code' then
          (characters fault rest).map
            (Char.ofNat (0x10000 + (code - 0xD800) * 0x400 + (code' - 0xDC00)) :: ·)
        else .error .malformed
      | .char _ :: _ => .error .malformed
      | [] => .error (fault.getD .malformed)
    else (characters fault rest).map (Char.ofNat code :: ·)

/-- The text that a string stands for. -/
def value (t : StringText) : Except Fault String :=
  (characters t.fault t.pieces).map String.ofList

end StringText

/-- The value of a hexadecimal digit. -/
def hexValue? (c : Char) : Option Nat :=
  if '0' ≤ c ∧ c ≤ '9' then some (c.toNat - '0'.toNat)
  else if 'a' ≤ c ∧ c ≤ 'f' then some (c.toNat - 'a'.toNat + 10)
  else if 'A' ≤ c ∧ c ≤ 'F' then some (c.toNat - 'A'.toNat + 10)
  else none

/-- The number that four hexadecimal digits make. -/
def hexNumber? (a b c d : Char) : Option Nat :=
  match hexValue? a, hexValue? b, hexValue? c, hexValue? d with
  | some a, some b, some c, some d => some (((a * 16 + b) * 16 + c) * 16 + d)
  | _, _, _, _ => none

/-- The fault of text behind `\u` that does not begin with four hexadecimal digits: too short if
there are no four bytes. -/
def hexFault (s : List Char) : Fault :=
  if (s.take 4).foldl (fun n c => n + c.utf8Size) 0 < 4 then .unfinished else .malformed

/-- The character that a letter behind a backslash stands for. -/
def escaped? : Char → Option Char
  | '"' => some '"'
  | '\\' => some '\\'
  | '/' => some '/'
  | 'b' => some '\x08'
  | 'f' => some '\x0c'
  | 'n' => some '\n'
  | 'r' => some '\r'
  | 't' => some '\t'
  | _ => none

/-- Reads a string behind its opening quote; `read` are the pieces before, the latest first. -/
def readString (read : List Piece) : List Char → StringText × List Char
  | [] => (⟨read.reverse, some .unfinished⟩, [])
  | '"' :: s => (⟨read.reverse, none⟩, s)
  | ['\\'] => (⟨read.reverse, some .unfinished⟩, [])
  | '\\' :: 'u' :: a :: b :: c :: d :: s =>
    match hexNumber? a b c d with
    | some code => readString (.unit code :: read) s
    | none => (⟨read.reverse, some (hexFault (a :: b :: c :: d :: s))⟩, [])
  | '\\' :: 'u' :: s => (⟨read.reverse, some (hexFault s)⟩, [])
  | '\\' :: e :: s =>
    match escaped? e with
    | some c => readString (.char c :: read) s
    | none => (⟨read.reverse, some .malformed⟩, [])
  | c :: s =>
    if c.toNat < 0x20 then (⟨read.reverse, some .malformed⟩, [])
    else readString (.char c :: read) s

/-! ## Numbers -/

/-- A number as it is written. -/
structure NumberText where
  negative : Bool
  whole : List Nat
  /-- The digits behind the point. -/
  fraction : Option (List Nat)
  /-- Is the exponent negative, and its digits. -/
  exponent : Option (Bool × List Nat)
  /-- What keeps the characters from being a number. -/
  fault : Option Fault
  deriving DecidableEq

/-- The value of a decimal digit. -/
def digit? (c : Char) : Option Nat :=
  if '0' ≤ c ∧ c ≤ '9' then some (c.toNat - '0'.toNat) else none

/-- The digits at the beginning of a text. -/
def leadingDigits (s : List Char) : List Nat × List Char :=
  ((s.takeWhile (digit? · |>.isSome)).filterMap digit?, s.dropWhile (digit? · |>.isSome))

/-- Reads the exponent of a number, if there is one. -/
def readExponent (n : NumberText) (s : List Char) : NumberText × List Char :=
  match s with
  | [] => (n, s)
  | c :: rest =>
    if c = 'e' ∨ c = 'E' then
      let (minus, rest) :=
        match rest with
        | '+' :: rest => (false, rest)
        | '-' :: rest => (true, rest)
        | rest => (false, rest)
      match leadingDigits rest with
      | ([], rest) => ({ n with fault := some (.at rest) }, rest)
      | (ds, rest) => ({ n with exponent := some (minus, ds) }, rest)
    else (n, s)

/-- Reads what follows the whole part of a number. -/
def readFraction (n : NumberText) (s : List Char) : NumberText × List Char :=
  match s with
  | '.' :: rest =>
    match leadingDigits rest with
    | ([], rest) => ({ n with fault := some (.at rest) }, rest)
    | (ds, rest) => readExponent { n with fraction := some ds } rest
  | s => readExponent n s

/-- Reads a number behind its sign.  Only the number zero begins with the digit zero. -/
def readNumber (negative : Bool) (s : List Char) : NumberText × List Char :=
  let n : NumberText := ⟨negative, [], none, none, none⟩
  match leadingDigits s with
  | ([], rest) => ({ n with fault := some (.at rest) }, rest)
  | (0 :: _ :: _, rest) => ({ n with fault := some .malformed }, rest)
  | (ds, rest) => readFraction { n with whole := ds } rest

/-! ## Values -/

mutual

/-- What stands where a value is expected. -/
inductive Reading
  | null
  | bool (b : Bool)
  | number (n : NumberText)
  | string (s : StringText)
  | array (items : Items)
  | object (members : Members)
  /-- The beginning of `null`, `true` or `false`. -/
  | word (fault : Fault)
  /-- Nothing, or a character that begins no value. -/
  | nothing (fault : Fault)

/-- What stands behind the beginning of an array or behind an item. -/
inductive Items
  | closed
  | broken (fault : Fault)
  | item (value : Reading) (rest : Items)

/-- What stands behind the beginning of an object or behind a member. -/
inductive Members
  | closed
  | broken (fault : Fault)
  | member (key : StringText) (value : Reading) (rest : Members)
  /-- Something that is no key, or nothing, stands where a key is expected. -/
  | keyless (fault : Fault)

end

/-- The blanks of JSON. -/
def isSpace (c : Char) : Bool := c = ' ' || c = '\t' || c = '\n' || c = '\r'

/-- The text behind its leading blanks. -/
def skipSpace (s : List Char) : List Char := s.dropWhile isSpace

/-- Reads the letters of a word behind its first one. -/
def readWord (v : Reading) : (letters : List Char) → List Char → Reading × List Char
  | [], s => (v, s)
  | _ :: _, [] => (.word .unfinished, [])
  | l :: letters, c :: s => if c = l then readWord v letters s else (.word .malformed, [])

/-- Reads a value that is neither an array nor an object, from its first character. -/
def readScalar (c : Char) (s : List Char) : Reading × List Char :=
  match c with
  | '"' =>
    let (t, rest) := readString [] s
    (.string t, rest)
  | 'n' => readWord .null ['u', 'l', 'l'] s
  | 't' => readWord (.bool true) ['r', 'u', 'e'] s
  | 'f' => readWord (.bool false) ['a', 'l', 's', 'e'] s
  | '-' =>
    let (n, rest) := readNumber true s
    (.number n, rest)
  | c =>
    if (digit? c).isSome then
      let (n, rest) := readNumber false (c :: s)
      (.number n, rest)
    else (.nothing .malformed, [])

mutual

/-- Reads a value. -/
def readValue (fuel : Nat) (s : List Char) : Reading × List Char :=
  match fuel with
  | 0 => (.nothing .malformed, [])
  | fuel + 1 =>
    match skipSpace s with
    | [] => (.nothing .unfinished, [])
    | '[' :: s =>
      match skipSpace s with
      | [] => (.array (.broken .unfinished), [])
      | ']' :: rest => (.array .closed, rest)
      | s =>
        let (items, rest) := readItems fuel s
        (.array items, rest)
    | '{' :: s =>
      match skipSpace s with
      | [] => (.object (.broken .unfinished), [])
      | '}' :: rest => (.object .closed, rest)
      | s =>
        let (members, rest) := readMembers fuel s
        (.object members, rest)
    | c :: s => readScalar c s

/-- Reads the items of an array from the beginning of the first. -/
def readItems (fuel : Nat) (s : List Char) : Items × List Char :=
  match fuel with
  | 0 => (.broken .malformed, [])
  | fuel + 1 =>
    let (v, rest) := readValue fuel s
    match skipSpace rest with
    | ']' :: rest => (.item v .closed, rest)
    | ',' :: rest =>
      let (items, rest) := readItems fuel rest
      (.item v items, rest)
    | rest => (.item v (.broken (.at rest)), [])

/-- Reads the members of an object from the beginning of the first. -/
def readMembers (fuel : Nat) (s : List Char) : Members × List Char :=
  match fuel with
  | 0 => (.broken .malformed, [])
  | fuel + 1 =>
    match skipSpace s with
    | '"' :: s =>
      let (key, rest) := readString [] s
      match skipSpace rest with
      | ':' :: rest =>
        let (v, rest) := readValue fuel rest
        match skipSpace rest with
        | '}' :: rest => (.member key v .closed, rest)
        | ',' :: rest =>
          let (members, rest) := readMembers fuel rest
          (.member key v members, rest)
        | rest => (.member key v (.broken (.at rest)), [])
      | rest => (.member key (.nothing (.at rest)) (.broken (.at rest)), [])
    | s => (.keyless (.at s), [])

end

namespace Reading

/-- Reads the value at the beginning of a text; gives what follows it. -/
def ofChars (s : List Char) : Reading × List Char := readValue (2 * s.length + 1) s

end Reading

mutual

/-- The fault that a value has even if nobody asks for it.  Numbers may be of any size and code
units need not come in pairs. -/
def Reading.fault? : Reading → Option Fault
  | .null => none
  | .bool _ => none
  | .number n => n.fault.map fun _ => .malformed
  | .string s => s.fault
  | .array items => items.fault?
  | .object members => members.fault?
  | .word f => some f
  | .nothing f => some f

/-- The first fault in items that nobody asks for. -/
def Items.fault? : Items → Option Fault
  | .closed => none
  | .broken f => some f
  | .item v rest => v.fault?.or rest.fault?

/-- The first fault in members that nobody asks for. -/
def Members.fault? : Members → Option Fault
  | .closed => none
  | .broken f => some f
  | .member key v rest => key.fault.or (v.fault?.or rest.fault?)
  | .keyless f => some f

end

end Vendoring.Json
