/-!
# Tables ordered by a key

A table holds rows in strictly increasing order of a textual key, so a key occurs at most once
and the order of the rows is fixed by the keys alone.  Texts are compared by code point.

A table is known by what `get?` finds: `get?_eq_some_iff` says that it finds the row with the key,
`get?_insert` and `get?_filter` say what is found after a change.
-/

namespace Vendoring

/-- Rows in strictly increasing order of their keys. -/
structure Table {α : Type} (key : α → String) where
  /-- The rows, smallest key first. -/
  rows : List α
  sorted : rows.Pairwise fun a b => key a < key b
  deriving DecidableEq

namespace Table

variable {α : Type} {key : α → String}

@[ext] theorem ext {s t : Table key} (h : s.rows = t.rows) : s = t := by
  cases s; cases t; simp_all

/-- The table without rows. -/
def empty (key : α → String) : Table key := ⟨[], .nil⟩

/-- The number of rows. -/
def size (t : Table key) : Nat := t.rows.length

/-- The row with the given key. -/
def get? (t : Table key) (k : String) : Option α := t.rows.find? (key · = k)

/-- Is there a row with the given key? -/
def contains (t : Table key) (k : String) : Bool := t.rows.any (key · = k)

/-- Puts a row where its key belongs; a row with the same key makes place for it. -/
def insertRow (key : α → String) (row : α) : List α → List α
  | [] => [row]
  | a :: rest =>
    if key row < key a then row :: a :: rest
    else if key a < key row then a :: insertRow key row rest
    else row :: rest

/-- The new rows are the inserted one and old ones. -/
theorem mem_insertRow {row b : α} {rows : List α} (h : b ∈ insertRow key row rows) :
    b = row ∨ b ∈ rows := by
  induction rows with
  | nil => simpa [insertRow] using h
  | cons a rest ih =>
    simp only [insertRow] at h
    split at h
    · simpa using h
    · split at h
      · rcases List.mem_cons.1 h with rfl | h
        · exact .inr (List.mem_cons_self ..)
        · exact (ih h).imp_right (List.mem_cons_of_mem _)
      · rcases List.mem_cons.1 h with rfl | h
        · exact .inl rfl
        · exact .inr (List.mem_cons_of_mem _ h)

theorem sorted_insertRow (row : α) {rows : List α}
    (h : rows.Pairwise fun a b => key a < key b) :
    (insertRow key row rows).Pairwise fun a b => key a < key b := by
  induction rows with
  | nil => simp [insertRow]
  | cons a rest ih =>
    obtain ⟨ha, hr⟩ := List.pairwise_cons.1 h
    simp only [insertRow]
    split
    · next hlt =>
      refine List.pairwise_cons.2 ⟨fun b hb => ?_, h⟩
      rcases List.mem_cons.1 hb with rfl | hb
      · exact hlt
      · exact String.lt_trans hlt (ha b hb)
    · next hnot =>
      split
      · next hlt =>
        refine List.pairwise_cons.2 ⟨fun b hb => ?_, ih hr⟩
        rcases mem_insertRow hb with rfl | hb
        · exact hlt
        · exact ha b hb
      · next hnot' =>
        have hk : key row = key a := String.le_antisymm hnot' hnot
        exact List.pairwise_cons.2 ⟨fun b hb => hk ▸ ha b hb, hr⟩

/-- The table with one more row, which replaces the row of the same key. -/
def insert (t : Table key) (row : α) : Table key :=
  ⟨insertRow key row t.rows, sorted_insertRow row t.sorted⟩

/-- The table with one more row, unless its key is taken. -/
def insertNew (t : Table key) (row : α) : Table key :=
  if t.contains (key row) then t else t.insert row

/-- The rows that satisfy a condition. -/
def filter (t : Table key) (p : α → Bool) : Table key :=
  ⟨t.rows.filter p, t.sorted.filter p⟩

/-- The table of the given rows, of which the last with a key counts. -/
def ofList (key : α → String) (rows : List α) : Table key :=
  rows.foldl insert (empty key)

/-! ## What is found -/

/-- Rows of one key are one row. -/
theorem eq_of_key_eq (t : Table key) {a b : α} (ha : a ∈ t.rows) (hb : b ∈ t.rows)
    (h : key a = key b) : a = b := by
  obtain ⟨rows, sorted⟩ := t
  induction rows with
  | nil => simp at ha
  | cons r rest ih =>
    obtain ⟨hr, hrest⟩ := List.pairwise_cons.1 sorted
    rcases List.mem_cons.1 ha with rfl | ha'
    · rcases List.mem_cons.1 hb with rfl | hb'
      · rfl
      · exact absurd (h ▸ hr b hb') (String.lt_irrefl _)
    · rcases List.mem_cons.1 hb with rfl | hb'
      · exact absurd (h ▸ hr a ha') (String.lt_irrefl _)
      · exact ih hrest ha' hb'

@[simp] theorem get?_empty (k : String) : (empty key).get? k = none := rfl

/-- The row that is found is the one with the key. -/
theorem get?_eq_some_iff {t : Table key} {k : String} {row : α} :
    t.get? k = some row ↔ row ∈ t.rows ∧ key row = k := by
  constructor
  · intro h
    exact ⟨List.mem_of_find?_eq_some h, by simpa using List.find?_some h⟩
  · rintro ⟨hrow, rfl⟩
    cases h : t.get? (key row) with
    | none =>
      have := List.find?_eq_none.1 h row hrow
      simp at this
    | some found =>
      have hkey : key found = key row := by simpa using List.find?_some h
      rw [t.eq_of_key_eq (List.mem_of_find?_eq_some h) hrow hkey]

/-- There is a row with the key if one is found. -/
theorem contains_eq_isSome_get? (t : Table key) (k : String) :
    t.contains k = (t.get? k).isSome := by
  rw [contains, get?, Bool.eq_iff_iff, List.any_eq_true, List.find?_isSome]

theorem find?_insertRow (k : String) (row : α) (rows : List α) :
    (insertRow key row rows).find? (key · = k) =
      if key row = k then some row else rows.find? (key · = k) := by
  induction rows with
  | nil => by_cases h : key row = k <;> simp [insertRow, h]
  | cons a rest ih =>
    simp only [insertRow]
    split
    · by_cases h : key row = k <;> simp [h]
    · next hnot =>
      split
      · next hlt =>
        rw [List.find?_cons, ih, List.find?_cons]
        by_cases ha : key a = k
        · have hne : key row ≠ k := fun h => String.lt_irrefl k (by rwa [ha, h] at hlt)
          simp [ha, hne]
        · simp [ha]
      · next hnot' =>
        have hk : key row = key a := String.le_antisymm hnot' hnot
        by_cases h : key row = k
        · simp [h]
        · simp [h, hk ▸ h]

/-- After an insertion the new row is found under its key, and every other key finds what it
found. -/
theorem get?_insert (t : Table key) (row : α) (k : String) :
    (t.insert row).get? k = if key row = k then some row else t.get? k :=
  find?_insertRow k row t.rows

/-- A row that fails the condition is no longer found. -/
theorem get?_filter (t : Table key) (p : α → Bool) (k : String) :
    (t.filter p).get? k = (t.get? k).filter p := by
  ext row
  simp only [get?_eq_some_iff, Option.filter_eq_some_iff, filter, List.mem_filter]
  constructor
  · rintro ⟨⟨hrow, hp⟩, hk⟩
    exact ⟨⟨hrow, hk⟩, hp⟩
  · rintro ⟨⟨hrow, hk⟩, hp⟩
    exact ⟨⟨hrow, hp⟩, hk⟩

end Table

end Vendoring
