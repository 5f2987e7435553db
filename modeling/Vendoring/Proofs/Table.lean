import Mathlib.Data.List.Nodup
import Vendoring.Proofs.Folds
import Vendoring.Table

/-!
# Tables as finite maps

What a table finds after several rows have been put into it, and how much a filter takes away.
-/

namespace Vendoring.Table

variable {α : Type} {key : α → String}

/-- A key is in the table if it is the key of a row. -/
theorem contains_iff {t : Table key} {k : String} :
    t.contains k = true ↔ ∃ row ∈ t.rows, key row = k := by
  simp [contains]

/-- The keys of a table are distinct. -/
theorem nodup_keys (t : Table key) : (t.rows.map key).Nodup := by
  rw [List.Nodup, List.pairwise_map]
  refine t.sorted.imp fun {a b} hlt heq => ?_
  exact String.lt_irrefl _ (heq ▸ hlt)

/-- A table is as long as a list of its keys without repetitions. -/
theorem size_eq_length {t : Table key} {ks : List String} (hks : ks.Nodup)
    (h : ∀ k, t.contains k = true ↔ k ∈ ks) : t.size = ks.length := by
  have hperm : (t.rows.map key).Perm ks := by
    rw [List.perm_ext_iff_of_nodup t.nodup_keys hks]
    intro k
    rw [List.mem_map, ← contains_iff, h]
  rw [size, ← hperm.length_eq, List.length_map]

/-- Tables with the same rows are the same, since their rows stand in one order. -/
theorem ext_rows {s t : Table key} (h : ∀ row, row ∈ s.rows ↔ row ∈ t.rows) : s = t := by
  have hperm : s.rows.Perm t.rows := by
    rw [List.perm_ext_iff_of_nodup s.nodup_keys.of_map t.nodup_keys.of_map]
    exact h
  refine Table.ext (hperm.eq_of_pairwise ?_ s.sorted t.sorted)
  intro a b _ _ hab hba
  exact absurd (String.lt_trans hab hba) (String.lt_irrefl _)

/-- A row of a taken key changes nothing, and any other is found under its key. -/
theorem get?_insertNew (t : Table key) (row : α) (k : String) :
    (t.insertNew row).get? k = (t.get? k).or (if key row = k then some row else none) := by
  rw [insertNew]
  have hcontains := t.contains_eq_isSome_get? (key row)
  by_cases htaken : t.contains (key row) = true
  · rw [if_pos htaken]
    by_cases hk : key row = k
    · obtain ⟨found, hfound⟩ := Option.isSome_iff_exists.1 (hcontains ▸ htaken)
      rw [← hk, hfound]
      rfl
    · simp [hk]
  · rw [if_neg htaken, get?_insert]
    by_cases hk : key row = k
    · have hnone : t.get? k = none := by
        rw [← hk, ← Option.not_isSome_iff_eq_none, ← hcontains]
        exact htaken
      simp [hk, hnone]
    · simp [hk]

/-- Of several rows with the same key the first one stays, unless the key was taken before. -/
theorem get?_foldl_insertNew (rows : List α) (t : Table key) (k : String) :
    (rows.foldl insertNew t).get? k = (t.get? k).or (rows.find? (key · = k)) := by
  induction rows generalizing t with
  | nil => simp
  | cons row rows ih =>
    rw [List.foldl_cons, ih, get?_insertNew, List.find?_cons, Option.or_assoc]
    by_cases hk : key row = k <;> simp [hk]

/-- Of several rows with the same key a table has the last one. -/
theorem get?_ofList (rows : List α) (k : String) :
    (ofList key rows).get? k = (rows.filter (key · = k)).getLast? := by
  have hinsert : ∀ (t : Table key) (row : α), (t.insert row).get? k =
      if decide (key row = k) = true then some row else t.get? k := by
    intro t row
    rw [get?_insert]
    simp only [decide_eq_true_eq]
  have hlast := get_foldl_eq_getLast? (get? · k) hinsert rows (empty key)
  rw [ofList, hlast, get?_empty]
  cases (rows.filter (key · = k)).getLast? <;> rfl

/-- A table that is made of rows with distinct keys has these rows. -/
theorem mem_rows_ofList_iff {rows : List α} (h : (rows.map key).Nodup) {row : α} :
    row ∈ (ofList key rows).rows ↔ row ∈ rows := by
  have hfound : row ∈ (ofList key rows).rows ↔
      (rows.filter (key · = key row)).getLast? = some row := by
    rw [← get?_ofList, get?_eq_some_iff]
    exact (and_iff_left rfl).symm
  rw [hfound]
  constructor
  · intro hlast
    exact (List.mem_filter.1 (List.mem_of_getLast? hlast)).1
  · intro hrow
    have hmem : row ∈ rows.filter (key · = key row) := List.mem_filter.2 ⟨hrow, by simp⟩
    have hne : rows.filter (key · = key row) ≠ [] := List.ne_nil_of_mem hmem
    -- the last row with the key is the row, since no other one has its key
    have hlast := List.mem_filter.1 (List.getLast_mem hne)
    rw [List.getLast?_eq_some_getLast hne]
    exact congrArg some (List.inj_on_of_nodup_map h hlast.1 hrow (by simpa using hlast.2))

theorem perm_rows_ofList {rows : List α} (h : (rows.map key).Nodup) :
    (ofList key rows).rows.Perm rows :=
  (List.perm_ext_iff_of_nodup (ofList key rows).nodup_keys.of_map h.of_map).2
    fun _ => mem_rows_ofList_iff h

/-- A table is made of its rows. -/
theorem ofList_rows (t : Table key) : ofList key t.rows = t :=
  ext_rows fun _ => mem_rows_ofList_iff t.nodup_keys

theorem insertRow_eq_self {row : α} {rows : List α} (hrow : row ∈ rows)
    (hsorted : rows.Pairwise fun a b => key a < key b) : insertRow key row rows = rows := by
  induction rows with
  | nil => cases hrow
  | cons a rest ih =>
    obtain ⟨ha, hrest⟩ := List.pairwise_cons.1 hsorted
    rcases List.mem_cons.1 hrow with rfl | hrow
    · simp [insertRow]
    · have hlt := ha row hrow
      have hnot : ¬ key row < key a := fun h => String.lt_irrefl _ (String.lt_trans hlt h)
      rw [insertRow, if_neg hnot, if_pos hlt, ih hrow hrest]

/-- To put a row into a table changes nothing exactly if the table has the row. -/
theorem insert_eq_self_iff {t : Table key} {row : α} :
    t.insert row = t ↔ t.get? (key row) = some row := by
  constructor
  · intro h
    rw [← h, get?_insert, if_pos rfl]
  · intro h
    exact Table.ext (insertRow_eq_self (get?_eq_some_iff.1 h).1 t.sorted)

/-- The rows that a filter drops are as many as the table gets shorter. -/
theorem size_sub_size_filter (t : Table key) (p : α → Bool) :
    t.size - (t.filter p).size = (t.rows.filter (! p ·)).length := by
  have h := List.length_eq_length_filter_add (l := t.rows) p
  simp only [size, filter]
  omega

end Vendoring.Table
