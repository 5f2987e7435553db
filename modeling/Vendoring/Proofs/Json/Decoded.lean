import Mathlib.Data.List.Nodup
import Vendoring.Proofs.Json.Readback
import Vendoring.Proofs.Stages

/-!
# What decoders give

To decode an array is to decode its items (`decodeList_reading_array`), and a record is decoded by
putting one field after the other into it.  So what holds of whatever a decoder gives holds of all
items of a list (`forall_mem_of_decodeList`), and what a record without any fields has, and every
field keeps, the decoded record has (`decodeRecord_keeps`).

A record that was written with all its fields, in their order, is decoded by storing what is read of
their values (`decodeRecord_reading`), which gives the record again if every field is read back
(`ReadsBack`).
-/

namespace Vendoring.Json

variable {α σ : Type} {decoder : Decoder α}

/-- What is refused is not decoded. -/
theorem refuse_ne_ok (wanted : String) (r : Reading) (a : α) : refuse wanted r ≠ .ok a := by
  intro h
  cases r with
  | number n =>
    rw [refuse] at h
    split at h <;> cases h
  | string t =>
    rw [refuse] at h
    split at h <;> cases h
  | _ => cases h

/-- A text is decoded if what is read of it is, with nothing but blanks behind it. -/
theorem decode_eq_ok_iff {s : String} {a : α} :
    decode decoder s = .ok a ↔
      decoder (Reading.ofChars s.toList).1 = .ok a ∧
        (skipSpace (Reading.ofChars s.toList).2).isEmpty = true := by
  rw [decode, bind_eq_ok_iff]
  constructor
  · rintro ⟨a', ha, hend⟩
    split at hend
    · next hblank =>
      cases hend
      exact ⟨ha, hblank⟩
    · cases hend
  · rintro ⟨ha, hblank⟩
    exact ⟨a, ha, by rw [if_pos hblank]; rfl⟩

/-- What is decoded of a text is decoded of what is read of it. -/
theorem exists_of_decode {s : String} {a : α} (h : decode decoder s = .ok a) :
    ∃ r, decoder r = .ok a :=
  ⟨_, (decode_eq_ok_iff.1 h).1⟩

/-- An optional value is decoded if the value is. -/
theorem decodeOption_eq_some_iff {r : Reading} {a : α} :
    decodeOption decoder r = .ok (some a) ↔ r ≠ .null ∧ decoder r = .ok a := by
  cases r <;> simp [decodeOption, map_eq_ok_iff]

/-! ## Lists -/

theorem decodeItems_readingItems (decoder : Decoder α) (vs : List Json) :
    decodeItems decoder (readingItems vs) = vs.mapM fun v => decoder v.reading := by
  induction vs with
  | nil => rfl
  | cons v vs ih => rw [readingItems, decodeItems, ih, List.mapM_cons]

/-- To decode an array that was written is to decode its items. -/
theorem decodeList_reading_array (decoder : Decoder α) (vs : List Json) :
    decodeList decoder (reading (.array vs)) = vs.mapM fun v => decoder v.reading :=
  decodeItems_readingItems decoder vs

theorem forall_mem_of_decodeItems {P : α → Prop} (h : ∀ r a, decoder r = .ok a → P a) :
    ∀ {items : Items} {as : List α}, decodeItems decoder items = .ok as → ∀ a ∈ as, P a
  | .closed, as, hitems => by
    cases hitems
    simp
  | .broken f, as, hitems => by cases hitems
  | .item v rest, as, hitems => by
    rw [decodeItems] at hitems
    obtain ⟨a, ha, hitems⟩ := bind_eq_ok_iff.1 hitems
    obtain ⟨as, has, hitems⟩ := bind_eq_ok_iff.1 hitems
    cases hitems
    intro a' ha'
    rcases List.mem_cons.1 ha' with rfl | ha'
    · exact h v a' ha
    · exact forall_mem_of_decodeItems h has a' ha'

/-- What holds of whatever is decoded holds of all items of a list. -/
theorem forall_mem_of_decodeList {P : α → Prop} (h : ∀ r a, decoder r = .ok a → P a)
    {r : Reading} {as : List α} (hlist : decodeList decoder r = .ok as) : ∀ a ∈ as, P a := by
  cases r with
  | array items => exact forall_mem_of_decodeItems h hlist
  | _ =>
    simp only [decodeList] at hlist
    exact absurd hlist (refuse_ne_ok _ _ _)

/-! ## Records -/

variable {fields : List (Field σ)} {I : σ → Prop}

/-- Does every field keep what holds of a record? -/
def Keeps (fields : List (Field σ)) (I : σ → Prop) : Prop :=
  ∀ f ∈ fields, ∀ s r s', I s → f.store s r = .ok s' → I s'

theorem keeps_nil : Keeps [] I := by
  intro f hf
  cases hf

/-- What a field stores is what its decoder gives. -/
@[simp] theorem store_field {β : Type} (name : String) (required : Bool) (decoder : Decoder β)
    (set : σ → β → σ) (s : σ) (r : Reading) :
    (field name required decoder set).store s r = (decoder r).map (set s) := rfl

theorem keeps_cons {β : Type} {name : String} {required : Bool} {decoder : Decoder β}
    {set : σ → β → σ} (hset : ∀ s r b, I s → decoder r = .ok b → I (set s b))
    (h : Keeps fields I) : Keeps (field name required decoder set :: fields) I := by
  intro f hf
  rcases List.mem_cons.1 hf with rfl | hf
  · intro s r s' hs hstored
    rw [store_field, map_eq_ok_iff] at hstored
    obtain ⟨b, hb, rfl⟩ := hstored
    exact hset s r b hs hb
  · exact h f hf

theorem storeMembers_keeps (h : Keeps fields I) :
    ∀ {members : Members} {seen : List String} {s : σ} {stored : List String × σ}, I s →
      storeMembers fields seen s members = .ok stored → I stored.2
  | .closed, seen, s, stored, hs, hstored => by
    cases hstored
    exact hs
  | .broken f, seen, s, stored, hs, hstored => by cases hstored
  | .keyless f, seen, s, stored, hs, hstored => by cases hstored
  | .member key v rest, seen, s, stored, hs, hstored => by
    rw [storeMembers] at hstored
    obtain ⟨k, -, hstored⟩ := bind_eq_ok_iff.1 hstored
    cases hfield : fields.find? (·.name = k) with
    | some f =>
      simp only [hfield] at hstored
      split at hstored
      · cases hstored
      · obtain ⟨s', hs', hstored⟩ := bind_eq_ok_iff.1 hstored
        exact storeMembers_keeps h (h f (List.mem_of_find?_eq_some hfield) s v s' hs hs') hstored
    | none =>
      simp only [hfield] at hstored
      split at hstored
      · cases hstored
      · exact storeMembers_keeps h hs hstored

theorem storeItems_keeps (h : Keeps fields I) {record : String} {total done : Nat} {s s' : σ}
    {items : Items} (hs : I s) (hstored : storeItems record total fields done s items = .ok s') :
    I s' := by
  induction fields generalizing done s items with
  | nil =>
    cases items with
    | closed =>
      cases hstored
      exact hs
    | broken f => cases hstored
    | item v rest => cases hstored
  | cons f fields ih =>
    cases items with
    | closed =>
      rw [storeItems] at hstored
      split at hstored
      · cases hstored
      · cases hstored
        exact hs
    | broken f => cases hstored
    | item v rest =>
      rw [storeItems] at hstored
      obtain ⟨s₁, hs₁, hstored⟩ := bind_eq_ok_iff.1 hstored
      have hfirst : I s₁ := h f (List.mem_cons_self ..) s v s₁ hs hs₁
      exact ih (fun f hf => h f (List.mem_cons_of_mem _ hf)) hfirst hstored

/-- What holds of a record without any fields, and is kept by every field, holds of a decoded
record. -/
theorem decodeRecord_keeps (h : Keeps fields I) {name : String} {start s : σ} {r : Reading}
    (hstart : I start) (hdecoded : decodeRecord name fields start r = .ok s) : I s := by
  cases r with
  | object members =>
    rw [decodeRecord] at hdecoded
    obtain ⟨⟨seen, s'⟩, hstored, hdecoded⟩ := bind_eq_ok_iff.1 hdecoded
    simp only at hdecoded
    split at hdecoded
    · cases hdecoded
    · cases hdecoded
      exact storeMembers_keeps h hstart hstored
  | array items => exact storeItems_keeps h hstart hdecoded
  | _ =>
    simp only [decodeRecord] at hdecoded
    exact absurd hdecoded (refuse_ne_ok _ _ _)

/-! ## Records that were written -/

/-- A field that was written is stored, if it was not written before. -/
theorem storeMembers_cons {f : Field σ} {k : String} {seen : List String}
    (hfind : fields.find? (·.name = k) = some f) (hseen : k ∉ seen) (v : Json)
    (rest : List (String × Json)) (s : σ) :
    storeMembers fields seen s (readingMembers ((k, v) :: rest)) =
      f.store s v.reading >>= fun s' =>
        storeMembers fields (k :: seen) s' (readingMembers rest) := by
  rw [readingMembers, storeMembers, StringText.decode_ofText]
  simp only [hfind, List.contains_iff_mem, hseen, if_false, bind, Except.bind]

theorem find?_name (h : (fields.map Field.name).Nodup) {f : Field σ} (hf : f ∈ fields) :
    fields.find? (·.name = f.name) = some f := by
  obtain ⟨before, after, rfl⟩ := List.append_of_mem hf
  rw [List.map_append, List.map_cons, List.nodup_middle, List.nodup_cons] at h
  have hbefore : before.find? (·.name = f.name) = none := by
    rw [List.find?_eq_none]
    intro g hg hname
    have hmem : g.name ∈ before.map Field.name := List.mem_map_of_mem hg
    exact h.1 (List.mem_append_left _ (of_decide_eq_true hname ▸ hmem))
  rw [List.find?_append, hbefore, Option.none_or, List.find?_cons_of_pos (by simp)]

/-- Puts the values that were written for fields into a record. -/
def storeWritten (s : σ) (written : List (Field σ × Json)) : Except Error σ :=
  written.foldlM (fun s field => field.1.store s field.2.reading) s

@[simp] theorem storeWritten_nil (s : σ) : storeWritten s [] = .ok s := rfl

@[simp] theorem storeWritten_cons (s : σ) (f : Field σ) (v : Json)
    (written : List (Field σ × Json)) :
    storeWritten s ((f, v) :: written) =
      f.store s v.reading >>= fun s' => storeWritten s' written := by
  rw [storeWritten, List.foldlM_cons]
  rfl

theorem storeMembers_zip {rest : List (Field σ)} {vs : List Json} {seen : List String} {s : σ}
    (hlength : vs.length = rest.length) (hnames : (rest.map Field.name).Nodup)
    (hfind : ∀ f ∈ rest, fields.find? (·.name = f.name) = some f ∧ f.name ∉ seen) :
    storeMembers fields seen s (readingMembers ((rest.map Field.name).zip vs)) =
      (storeWritten s (rest.zip vs)).map fun s' => ((rest.map Field.name).reverse ++ seen, s') := by
  -- on the fields that are left; those in `seen` stand before them
  induction rest generalizing vs seen s with
  | nil => rfl
  | cons f rest ih =>
    cases vs with
    | nil => cases hlength
    | cons v vs =>
      rw [List.map_cons, List.nodup_cons] at hnames
      have hfirst := hfind f (List.mem_cons_self ..)
      have hrest : ∀ g ∈ rest, fields.find? (·.name = g.name) = some g ∧
          g.name ∉ f.name :: seen := by
        intro g hg
        obtain ⟨hg', hseen⟩ := hfind g (List.mem_cons_of_mem _ hg)
        have hne : g.name ≠ f.name := fun heq => hnames.1 (heq ▸ List.mem_map_of_mem hg)
        exact ⟨hg', by simp [hne, hseen]⟩
      have hih := fun s' : σ => ih (s := s') (Nat.succ.inj hlength) hnames.2 hrest
      rw [List.map_cons, List.zip_cons_cons, storeMembers_cons hfirst.1 hfirst.2,
        List.zip_cons_cons, storeWritten_cons]
      cases f.store s v.reading with
      | error e => rfl
      | ok s' =>
        refine (hih s').trans ?_
        rw [List.reverse_cons, List.append_assoc]
        rfl

/-- **A record that was written with all its fields** is decoded field by field. -/
theorem decodeRecord_reading (name : String) (fields : List (Field σ)) (vs : List Json)
    (start : σ) (hlength : vs.length = fields.length) (hnames : (fields.map Field.name).Nodup) :
    decodeRecord name fields start (reading (.object ((fields.map Field.name).zip vs))) =
      storeWritten start (fields.zip vs) := by
  have hstored : storeMembers fields [] start (readingMembers ((fields.map Field.name).zip vs)) =
      (storeWritten start (fields.zip vs)).map fun s =>
        ((fields.map Field.name).reverse ++ [], s) :=
    storeMembers_zip hlength hnames fun f hf => ⟨find?_name hnames hf, List.not_mem_nil⟩
  rw [reading, decodeRecord, hstored]
  cases storeWritten start (fields.zip vs) with
  | error e => rfl
  | ok s =>
    have hgiven : (fields.find? fun f => f.required &&
        !((fields.map Field.name).reverse ++ []).contains f.name) = none := by
      rw [List.find?_eq_none]
      intro f hf
      have hmem : f.name ∈ (fields.map Field.name).reverse ++ [] := by
        simpa using ⟨f, hf, rfl⟩
      simp only [List.contains_iff_mem.2 hmem, Bool.not_true, Bool.and_false]
      exact Bool.false_ne_true
    simp only [Except.map, bind, Except.bind, hgiven]
    rfl

/-- Does a decoder give every value again that was written? -/
def ReadsBack (decoder : Decoder α) (toJson : α → Json) : Prop :=
  ∀ a, decoder (toJson a).reading = .ok a

theorem readsBack_string : ReadsBack decodeString .string := decodeString_reading

theorem readsBack_path : ReadsBack decodePath .string := StringText.decode_ofText

theorem readsBack_bool : ReadsBack decodeBool .bool := fun _ => rfl

theorem readsBack_uint32 : ReadsBack decodeUInt32 fun n => .number n.toNat := decodeUInt32_reading

/-- An optional text is read back. -/
theorem readsBack_optional : ReadsBack (decodeOption decodeString) .optional
  | none => rfl
  | some s => congrArg (Except.map some) (decodeString_reading s)

/-- A list is read back if its items are. -/
theorem decodeList_eq_ok_iff {toJson : α → Json} {as : List α} :
    decodeList decoder (reading (.array (as.map toJson))) = .ok as ↔
      ∀ a ∈ as, decoder (toJson a).reading = .ok a := by
  rw [decodeList_reading_array, mapM_eq_ok_iff, List.forall₂_map_left_iff, List.forall₂_same]

theorem ReadsBack.list {toJson : α → Json} (h : ReadsBack decoder toJson) :
    ReadsBack (decodeList decoder) fun as => .array (as.map toJson) := by
  intro as
  rw [decodeList_eq_ok_iff]
  intro a _
  exact h a

theorem readsBack_strings : ReadsBack (decodeList decodeString) .strings := readsBack_string.list

/-- A map is read back, in its order, if its values are. -/
theorem ReadsBack.map {toJson : α → Json} (h : ReadsBack decoder toJson) :
    ReadsBack (decodeMap Except.ok decoder)
      fun rows => .object (rows.map fun row => (row.1, toJson row.2)) := by
  intro rows
  rw [reading, decodeMap]
  induction rows with
  | nil => rfl
  | cons row rows ih =>
    rw [List.map_cons, readingMembers, decodeMembers, StringText.decode_ofText, h row.2, ih]
    rfl

/-- A value of an enumeration is read back from its name, which no other value has. -/
theorem readsBack_enum {name : α → String} {all : List α} (hname : Function.Injective name)
    (hall : ∀ a, a ∈ all) : ReadsBack (decodeEnum name all) fun a => .string (name a) := by
  intro a
  have hfind : all.find? (name · = name a) = some a := by
    cases hfound : all.find? (name · = name a) with
    | none => simpa using List.find?_eq_none.1 hfound a (hall a)
    | some b =>
      have hb : name b = name a := by simpa using List.find?_some hfound
      rw [hname hb]
  rw [reading, decodeEnum, StringText.decode_ofText]
  simp only [Except.bind, variantOf, hfind]

/-- A record is read back if what was written for its fields makes the record. -/
theorem readsBack_record (name : String) (fields : List (Field σ)) (values : σ → List Json)
    {start : σ} (hlength : ∀ s, (values s).length = fields.length)
    (hnames : (fields.map Field.name).Nodup)
    (hstored : ∀ s, storeWritten start (fields.zip (values s)) = .ok s) :
    ReadsBack (decodeRecord name fields start)
      fun s => .object ((fields.map Field.name).zip (values s)) := by
  intro s
  rw [decodeRecord_reading name fields (values s) start (hlength s) hnames]
  exact hstored s

end Vendoring.Json
