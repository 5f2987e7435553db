import Vendoring.Proofs.Stages

/-!
# Folds

A fold over a list changes a state element by element.  Often one part of the state depends only
on the elements of some kind, and then it can be told without the rest of the state: it is what
the last of these elements makes it, or what all of them together make it.

Of a fold that may fail, what every step keeps holds at the end (`foldlM_keeps`).
-/

namespace Vendoring

variable {α β γ σ : Type} (get : σ → β) {update : σ → α → σ} {p : α → Bool}

/-- A part of the state that elements of one kind change is changed by these alone. -/
theorem get_foldl_eq_foldl_filter {change : β → α → β}
    (h : ∀ s a, get (update s a) = if p a then change (get s) a else get s) (as : List α) (s : σ) :
    get (as.foldl update s) = (as.filter p).foldl change (get s) := by
  induction as generalizing s with
  | nil => rfl
  | cons a as ih =>
    rw [List.foldl_cons, ih, h]
    by_cases ha : p a = true
    · rw [if_pos ha, List.filter_cons_of_pos ha, List.foldl_cons]
    · rw [if_neg ha, List.filter_cons_of_neg ha]

/-- A part of the state that elements of one kind set is set by the last of them. -/
theorem get_foldl_eq_getLast? {value : α → β}
    (h : ∀ s a, get (update s a) = if p a then value a else get s) (as : List α) (s : σ) :
    get (as.foldl update s) = ((as.filter p).getLast?.map value).getD (get s) := by
  induction as generalizing s with
  | nil => rfl
  | cons a as ih =>
    rw [List.foldl_cons, ih, h]
    by_cases ha : p a = true
    · rw [if_pos ha, List.filter_cons_of_pos ha, List.getLast?_cons]
      cases (as.filter p).getLast? <;> rfl
    · rw [if_neg ha, List.filter_cons_of_neg ha]

/-- A part of the state that elements of one kind extend, each by some list, is extended by all
these lists together. -/
theorem get_foldl_eq_flatMap {extend : β → List γ → β} {part : α → List γ}
    (hnil : ∀ b, extend b [] = b)
    (happend : ∀ b cs ds, extend b (cs ++ ds) = extend (extend b cs) ds)
    (h : ∀ s a, get (update s a) = if p a then extend (get s) (part a) else get s)
    (as : List α) (s : σ) :
    get (as.foldl update s) = extend (get s) ((as.filter p).flatMap part) := by
  induction as generalizing s with
  | nil => exact (hnil (get s)).symm
  | cons a as ih =>
    rw [List.foldl_cons, ih, h]
    by_cases ha : p a = true
    · rw [if_pos ha, List.filter_cons_of_pos ha, List.flatMap_cons, happend]
    · rw [if_neg ha, List.filter_cons_of_neg ha]

/-- What holds of a state and the elements that are left, and is kept by every step, holds in the
end. -/
theorem foldlM_keeps {ε : Type} {step : σ → α → Except ε σ} {I : List α → σ → Prop}
    (hstep : ∀ a as s s', I (a :: as) s → step s a = .ok s' → I as s') {as : List α} {s s' : σ}
    (h : I as s) (hrun : as.foldlM step s = .ok s') : I [] s' := by
  induction as generalizing s with
  | nil =>
    cases hrun
    exact h
  | cons a as ih =>
    rw [List.foldlM_cons] at hrun
    obtain ⟨middle, hs, hrun⟩ := bind_eq_ok_iff.1 hrun
    exact ih (hstep a as s middle h hs) hrun

end Vendoring
