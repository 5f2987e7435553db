import Vendoring.Coordinate
import Vendoring.Json.Number
import Vendoring.Text.Quoted

/-!
# Decoding JSON

Decoders turn what was read of a JSON text into values of a type.  They ask for the parts of the
text in the order in which they stand in it, so of several things that are wrong with a text the
first one is reported.

A record is written as an object of its fields, in any order and among other members, or as the
array of its fields in order.
-/

namespace Vendoring.Json

/-- What was found where something else is needed. -/
inductive Found
  | null
  | boolean (b : Bool)
  | number (n : Number)
  | string (s : String)
  | sequence
  | map

/-- How an integer is shown. -/
def integerText (s : String) : String := "integer `" ++ s ++ "`"

/-- How a thing that was found is shown. -/
def Found.text : Found → String
  | null => "null"
  | boolean b => "boolean `" ++ (if b then "true" else "false") ++ "`"
  | number (.natural n) => integerText (toString n)
  | number (.negative n) => integerText ("-" ++ toString n)
  | number (.float x) => "floating point `" ++ String.ofList (floatText x) ++ "`"
  | string s => "string " ++ Text.quoted s
  | sequence => "sequence"
  | map => "map"

/-- How a value fails to be of the type that is asked for. -/
inductive Mismatch
  | wrongType (found : Found) (wanted : String)
  | outOfRange (found : Found) (wanted : String)
  | tooShort (length : Nat) (record : String) (fields : Nat)
  | missingField (name : String)
  | duplicateField (name : String)
  | unknownVariant (found : String) (known : List String)
  | invalidCoordinate (text : String)

/-- A list of names for a reader, who may choose one. -/
def choices (names : List String) : String :=
  match names.map fun name => "`" ++ name ++ "`" with
  | [a, b] => a ++ " or " ++ b
  | names => "one of " ++ ", ".intercalate names

/-- What is wrong with a value, in words. -/
def Mismatch.message : Mismatch → String
  | wrongType found wanted => "invalid type: " ++ found.text ++ ", expected " ++ wanted
  | outOfRange found wanted => "invalid value: " ++ found.text ++ ", expected " ++ wanted
  | tooShort length record fields =>
    "invalid length " ++ toString length ++ ", expected struct " ++ record ++ " with "
      ++ toString fields ++ (if fields = 1 then " element" else " elements")
  | missingField name => "missing field `" ++ name ++ "`"
  | duplicateField name => "duplicate field `" ++ name ++ "`"
  | unknownVariant found known =>
    "unknown variant `" ++ found ++ "`, expected " ++ choices known
  | invalidCoordinate text => Coordinate.invalidMessage text

/-- Why a text was not decoded. -/
inductive Error
  /-- It is no JSON. -/
  | text (fault : Fault)
  /-- It is JSON as far as it was read, but not of the right shape. -/
  | shape (mismatch : Mismatch)

/-- What is wrong with a text, in words. -/
def Error.message : Error → String
  | text .unfinished => "unexpected end of JSON text"
  | text .malformed => "malformed JSON text"
  | shape mismatch => mismatch.message

/-- Turns what stands at a place into a value. -/
abbrev Decoder (α : Type) : Type := Reading → Except Error α

/-- Refuses whatever was found, which is looked at to the end if it is a scalar. -/
def refuse {α : Type} (wanted : String) : Decoder α
  | .null => .error (.shape (.wrongType .null wanted))
  | .bool b => .error (.shape (.wrongType (.boolean b) wanted))
  | .number n =>
    match n.value with
    | .ok v => .error (.shape (.wrongType (.number v) wanted))
    | .error f => .error (.text f)
  | .string s =>
    match s.value with
    | .ok v => .error (.shape (.wrongType (.string v) wanted))
    | .error f => .error (.text f)
  | .array _ => .error (.shape (.wrongType .sequence wanted))
  | .object _ => .error (.shape (.wrongType .map wanted))
  | .word f => .error (.text f)
  | .nothing f => .error (.text f)

/-! ## Scalars -/

/-- The text of a string. -/
def StringText.decode (s : StringText) : Except Error String := s.value.mapError .text

/-- A text, called `wanted` where something else is found. -/
def decodeText (wanted : String) : Decoder String
  | .string s => s.decode
  | r => refuse wanted r

/-- A text. -/
def decodeString : Decoder String := decodeText "a string"

/-- The text of a path. -/
def decodePath : Decoder String := decodeText "path string"

/-- A truth value. -/
def decodeBool : Decoder Bool
  | .bool b => .ok b
  | r => refuse "a boolean" r

/-- A natural number of 32 bits. -/
def decodeUInt32 : Decoder UInt32
  | .number n =>
    match n.value with
    | .error f => .error (.text f)
    | .ok (.natural v) =>
      if v < UInt32.size then .ok (UInt32.ofNat v)
      else .error (.shape (.outOfRange (.number (.natural v)) "u32"))
    | .ok (.negative v) => .error (.shape (.outOfRange (.number (.negative v)) "u32"))
    | .ok (.float x) => .error (.shape (.wrongType (.number (.float x)) "u32"))
  | r => refuse "u32" r

/-- A coordinate from its text. -/
def coordinateOf (s : String) : Except Error Coordinate :=
  match Coordinate.parse? s with
  | some k => .ok k
  | none => .error (.shape (.invalidCoordinate s))

/-- A coordinate. -/
def decodeCoordinate : Decoder Coordinate := fun r => (decodeString r).bind coordinateOf

/-! ## Options, lists and maps -/

/-- A value, or nothing where `null` stands. -/
def decodeOption {α : Type} (decode : Decoder α) : Decoder (Option α)
  | .null => .ok none
  | r => (decode r).map some

/-- The values of items. -/
def decodeItems {α : Type} (decode : Decoder α) : Items → Except Error (List α)
  | .closed => .ok []
  | .broken f => .error (.text f)
  | .item v rest => do
    let a ← decode v
    let as ← decodeItems decode rest
    return a :: as

/-- The values of an array. -/
def decodeList {α : Type} (decode : Decoder α) : Decoder (List α)
  | .array items => decodeItems decode items
  | r => refuse "a sequence" r

/-- The keys and values of members. -/
def decodeMembers {κ α : Type} (key : String → Except Error κ) (decode : Decoder α) :
    Members → Except Error (List (κ × α))
  | .closed => .ok []
  | .broken f => .error (.text f)
  | .keyless f => .error (.text f)
  | .member k v rest => do
    let k ← (← k.decode) |> key
    let a ← decode v
    let as ← decodeMembers key decode rest
    return (k, a) :: as

/-- The keys and values of an object, in their order and with repetitions. -/
def decodeMap {κ α : Type} (key : String → Except Error κ) (decode : Decoder α) :
    Decoder (List (κ × α))
  | .object members => decodeMembers key decode members
  | r => refuse "a map" r

/-! ## Enumerations -/

/-- A value of an enumeration, by the names of its values. -/
def variantOf {α : Type} (name : α → String) (all : List α) (s : String) : Except Error α :=
  match all.find? (name · = s) with
  | some a => .ok a
  | none => .error (.shape (.unknownVariant s (all.map name)))

/-- A value of an enumeration: its name, or an object whose only member has that name and holds
`null`. -/
def decodeEnum {α : Type} (name : α → String) (all : List α) : Decoder α
  | .string s => s.decode.bind (variantOf name all)
  | .object (.member key value rest) => do
    let a ← key.decode.bind (variantOf name all)
    match value with
    | .null =>
      match rest with
      | .closed => return a
      | .broken f => .error (.text f)
      | _ => .error (.text .malformed)
    | v => refuse "unit" v
  | .object (.keyless f) => .error (.text f)
  | .object (.broken f) => .error (.text f)
  | .nothing f => .error (.text f)
  | _ => .error (.text .malformed)

/-! ## Records -/

/-- A field of a record of type `σ`. -/
structure Field (σ : Type) where
  name : String
  /-- Must the field be given? -/
  required : Bool
  /-- Decodes the field's value and puts it into the record. -/
  store : σ → Decoder σ

/-- A field of a record with the given decoder and setter. -/
def field {σ α : Type} (name : String) (required : Bool) (decode : Decoder α)
    (set : σ → α → σ) : Field σ :=
  ⟨name, required, fun s r => (decode r).map (set s)⟩

/-- Puts the values of members into a record; `seen` are the names of the fields put there before.
Members that are no fields are skipped. -/
def storeMembers {σ : Type} (fields : List (Field σ)) (seen : List String) (s : σ) :
    Members → Except Error (List String × σ)
  | .closed => .ok (seen, s)
  | .broken f => .error (.text f)
  | .keyless f => .error (.text f)
  | .member key v rest => do
    let k ← key.decode
    match fields.find? (·.name = k) with
    | some f =>
      if seen.contains k then .error (.shape (.duplicateField k))
      else
        let s ← f.store s v
        storeMembers fields (k :: seen) s rest
    | none =>
      match v.fault? with
      | some f => .error (.text f)
      | none => storeMembers fields seen s rest

/-- Puts the values of items into the fields of a record, in their order.  What is called `record`
has `total` fields, of which `done` are stored. -/
def storeItems {σ : Type} (record : String) (total : Nat) :
    (fields : List (Field σ)) → (done : Nat) → σ → Items → Except Error σ
  | [], _, s, .closed => .ok s
  | [], _, _, .broken f => .error (.text f)
  | [], _, _, .item _ _ => .error (.text .malformed)
  | f :: fields, done, s, .closed =>
    match (f :: fields).findIdx? (·.required) with
    | some i => .error (.shape (.tooShort (done + i) record total))
    | none => .ok s
  | _ :: _, _, _, .broken e => .error (.text e)
  | f :: fields, done, s, .item v rest => do
    let s ← f.store s v
    storeItems record total fields (done + 1) s rest

/-- A record with the given fields, starting from the value `start`. -/
def decodeRecord {σ : Type} (name : String) (fields : List (Field σ)) (start : σ) : Decoder σ
  | .object members => do
    let (seen, s) ← storeMembers fields [] start members
    match fields.find? fun f => f.required && !seen.contains f.name with
    | some f => .error (.shape (.missingField f.name))
    | none => return s
  | .array items => storeItems name fields.length fields 0 start items
  | r => refuse ("struct " ++ name) r

/-! ## Whole texts -/

/-- Decodes a text that holds one value and nothing else but blanks. -/
def decode {α : Type} (decoder : Decoder α) (s : String) : Except Error α := do
  let (r, rest) := Reading.ofChars s.toList
  let a ← decoder r
  if (skipSpace rest).isEmpty then return a else .error (.text .malformed)

end Vendoring.Json
