import Mathlib.Data.List.Induction
import Mathlib.Data.List.Nodup

/-!
# Lists without repetitions

A list without its repetitions has each element where it comes first.  To append elements to a list
one after the other, each only if it is new, is to append them without repetitions and without those
that are there (`foldl_append_new`).  This makes a list without repetitions out of one that had none
before, and out of no other (`append_new_eq_eraseDups_iff`).
-/

namespace Vendoring

variable {α : Type} [BEq α] [LawfulBEq α]

/-- One more element comes last, unless the list has it. -/
theorem eraseDups_concat (xs : List α) (x : α) :
    (xs ++ [x]).eraseDups = if x ∈ xs then xs.eraseDups else xs.eraseDups ++ [x] := by
  have hone : [x].eraseDups = [x] := rfl
  rw [List.eraseDups_append]
  by_cases h : x ∈ xs
  · simp [List.removeAll, h]
  · simp [List.removeAll, h, hone]

/-- One more element comes last among those of some kind, if it is of this kind and new. -/
theorem eraseDups_filter_concat (p : α → Bool) (xs : List α) (x : α) :
    ((xs ++ [x]).filter p).eraseDups =
      if p x = true ∧ x ∉ xs then (xs.filter p).eraseDups ++ [x] else (xs.filter p).eraseDups := by
  by_cases hp : p x = true
  · rw [List.filter_append, List.filter_cons_of_pos hp, List.filter_nil, eraseDups_concat]
    by_cases hx : x ∈ xs <;> simp [hp, hx]
  · rw [List.filter_append, List.filter_cons_of_neg hp]
    simp [hp]

theorem nodup_eraseDups (xs : List α) : xs.eraseDups.Nodup := by
  induction xs using List.reverseRecOn with
  | nil => exact List.nodup_nil
  | append_singleton xs x ih =>
    rw [eraseDups_concat]
    by_cases h : x ∈ xs
    · rw [if_pos h]
      exact ih
    · rw [if_neg h, ← List.concat_eq_append]
      exact ih.concat (List.mem_eraseDups.not.2 h)

theorem eraseDups_eq_self_iff {xs : List α} : xs.eraseDups = xs ↔ xs.Nodup := by
  refine ⟨fun h => h ▸ nodup_eraseDups xs, fun h => ?_⟩
  induction xs using List.reverseRecOn with
  | nil => rfl
  | append_singleton xs x ih =>
    rw [← List.concat_eq_append, List.nodup_concat] at h
    rw [eraseDups_concat, if_neg h.1, ih h.2]

/-- A list without repetitions has none to lose. -/
theorem eraseDups_eraseDups (xs : List α) : xs.eraseDups.eraseDups = xs.eraseDups :=
  eraseDups_eq_self_iff.2 (nodup_eraseDups xs)

/-- What is found first in a list is found first without its repetitions. -/
theorem find?_eraseDups (p : α → Bool) (xs : List α) : xs.eraseDups.find? p = xs.find? p := by
  induction xs using List.reverseRecOn with
  | nil => rfl
  | append_singleton xs x ih =>
    rw [eraseDups_concat, List.find?_append]
    by_cases h : x ∈ xs
    · rw [if_pos h, ih]
      cases hfound : xs.find? p with
      | some y => rfl
      | none =>
        have hx : ¬ p x = true := List.find?_eq_none.1 hfound x h
        simp [hx]
    · rw [if_neg h, List.find?_append, ih]

/-- Elements that are appended if they are new come behind the others, each where it comes
first. -/
theorem foldl_append_new (xs ys : List α) :
    ys.foldl (fun xs y => if xs.contains y then xs else xs ++ [y]) xs =
      xs ++ (ys.filter (· ∉ xs)).eraseDups := by
  induction ys using List.reverseRecOn with
  | nil => simp
  | append_singleton ys y ih =>
    rw [List.foldl_append, ih, eraseDups_filter_concat]
    by_cases hx : y ∈ xs <;> by_cases hy : y ∈ ys <;> simp [hx, hy]

/-- New elements behind a list have none of its repetitions, but leave those that it has. -/
theorem nodup_append_new_iff {xs ys : List α} :
    (xs ++ (ys.filter (· ∉ xs)).eraseDups).Nodup ↔ xs.Nodup := by
  refine ⟨fun h => (List.nodup_append'.1 h).1, fun h => ?_⟩
  refine List.nodup_append'.2 ⟨h, nodup_eraseDups _, fun x hx hnew => ?_⟩
  rw [List.mem_eraseDups, List.mem_filter, decide_eq_true_eq] at hnew
  exact hnew.2 hx

/-- New elements behind a list make the list of all without repetitions, if it had none itself. -/
theorem append_new_eq_eraseDups_iff {xs ys : List α} :
    xs ++ (ys.filter (· ∉ xs)).eraseDups = (xs ++ ys).eraseDups ↔ xs.Nodup := by
  have hnew : ys.removeAll xs = ys.filter (· ∉ xs) := by
    simp [List.removeAll]
  rw [List.eraseDups_append, hnew, List.append_cancel_right_eq, eq_comm, eraseDups_eq_self_iff]

end Vendoring
