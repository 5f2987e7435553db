import Mathlib.Data.List.Infix
import Vendoring.Xml.Cut

/-!
# Where markup ends

`cut` divides a text where an automaton stops.  To say where that is, it is enough to run the
automaton over the characters before: if it gets through them all and stops on the next one, the
text is divided behind that one (`cut_of_foldlM`).  The three automata that look for the end of
tags, of instructions, and of comments and CDATA sections get through whatever does not hold the
end they look for.
-/

namespace Vendoring.Xml

variable {σ : Type} {step : σ → Char → Option σ}

/-- An automaton that gets through the first characters goes on behind them. -/
theorem cutFrom_append_of_foldlM {state state' : σ} {s : List Char}
    (h : s.foldlM step state = some state') (taken rest : List Char) :
    cutFrom step state taken (s ++ rest) = cutFrom step state' (s.reverse ++ taken) rest := by
  induction s generalizing state taken with
  | nil =>
    obtain rfl : state = state' := by simpa using h
    rfl
  | cons c s ih =>
    rw [List.foldlM_cons, Option.bind_eq_bind, Option.bind_eq_some_iff] at h
    obtain ⟨middle, hstep, hrest⟩ := h
    rw [List.cons_append, cutFrom, hstep]
    simpa using ih hrest (c :: taken)

/-- An automaton that gets through the first characters is run over the others. -/
theorem foldlM_append_of_eq {state state' : σ} {s : List Char}
    (h : s.foldlM step state = some state') (t : List Char) :
    (s ++ t).foldlM step state = t.foldlM step state' := by
  rw [List.foldlM_append, h]
  rfl

/-- A text is divided behind the character on which the automaton stops. -/
theorem cut_of_foldlM {start state : σ} {s : List Char} {c : Char}
    (h : s.foldlM step start = some state) (hstop : step state c = none) (rest : List Char) :
    cut step start (s ++ c :: rest) = .ok (s ++ [c], rest) := by
  rw [cut, cutFrom_append_of_foldlM h, cutFrom, hstop]
  simp

/-! ## Tags -/

/-- Characters other than quotes and the end of a tag are passed outside quotes. -/
theorem foldlM_tagStep_of_plain {s : List Char}
    (h : ∀ c ∈ s, c ≠ '>' ∧ c ≠ '\'' ∧ c ≠ '"') : s.foldlM tagStep none = some none := by
  induction s with
  | nil => rfl
  | cons c s ih =>
    obtain ⟨hend, hsingle, hdouble⟩ := h c (List.mem_cons_self ..)
    have hstep : tagStep none c = some none := by
      simp [tagStep, hsingle, hdouble]
    rw [List.foldlM_cons, hstep]
    exact ih fun d hd => h d (List.mem_cons_of_mem _ hd)

/-- Characters other than the open quote are passed inside quotes. -/
theorem foldlM_tagStep_of_quoted {quote : Char} {s : List Char} (h : quote ∉ s) :
    s.foldlM tagStep (some quote) = some (some quote) := by
  induction s with
  | nil => rfl
  | cons c s ih =>
    rw [List.mem_cons, not_or] at h
    obtain ⟨hc, hs⟩ := h
    have hstep : tagStep (some quote) c = some (some quote) := by
      simp [tagStep, Ne.symm hc]
    rw [List.foldlM_cons, hstep]
    exact ih hs

/-! ## Instructions -/

/-- The state that the search for the end of an instruction is in behind a character. -/
theorem foldlM_instructionStep (question : Bool) {s : List Char}
    (h : ¬ "?>".toList <:+: (if question then ['?'] else []) ++ s) :
    (s ++ ['?']).foldlM instructionStep question = some true := by
  induction s generalizing question with
  | nil => cases question <;> rfl
  | cons c s ih =>
    have hstep : instructionStep question c = some (decide (c = '?')) := by
      rw [instructionStep, if_neg]
      rw [Bool.and_eq_true, decide_eq_true_eq]
      rintro ⟨rfl, rfl⟩
      exact h ⟨[], s, rfl⟩
    rw [List.cons_append, List.foldlM_cons, hstep]
    refine ih (decide (c = '?')) fun hinner => h ?_
    refine hinner.trans ?_
    by_cases hc : c = '?'
    · subst hc
      exact List.infix_append_right ..
    · have hfront : (if (decide (c = '?')) = true then ['?'] else []) ++ s = s := by simp [hc]
      rw [hfront]
      exact (List.suffix_cons c s).isInfix.trans (List.suffix_append _ _).isInfix

/-- A text behind `<?` that holds no end of an instruction is cut off with the end behind it. -/
theorem cut_instruction {s : List Char} (h : ¬ "?>".toList <:+: '?' :: s) (rest : List Char) :
    cut instructionStep true (s ++ ("?>".toList ++ rest)) = .ok (s ++ "?>".toList, rest) := by
  have hrun := foldlM_instructionStep true h
  have hcut := cut_of_foldlM hrun (c := '>') rfl rest
  simpa using hcut

/-! ## Comments and CDATA sections -/

/-- The search for two marks and the character behind them gets through a text without them, and
then through two marks. -/
theorem foldlM_doubledStep {mark : Char} (hmark : mark ≠ '>') {marks : Nat} (hmarks : marks ≤ 2)
    {s : List Char} (h : ¬ [mark, mark, '>'] <:+: List.replicate marks mark ++ s) :
    (s ++ [mark, mark]).foldlM (doubledStep mark) marks = some 2 := by
  induction s generalizing marks with
  | nil =>
    have hstep : ∀ n ≤ 2, doubledStep mark n mark = some (min (n + 1) 2) := by
      intro n _
      simp [doubledStep, hmark]
    rw [List.nil_append, List.foldlM_cons, hstep marks hmarks, Option.bind_eq_bind,
      Option.bind_some, List.foldlM_cons, hstep _ (by omega), Option.bind_eq_bind,
      Option.bind_some, List.foldlM_nil]
    congr 1
    omega
  | cons c s ih =>
    by_cases hc : c = mark
    · subst hc
      have hstep : doubledStep c marks c = some (min (marks + 1) 2) := by
        simp [doubledStep, hmark]
      rw [List.cons_append, List.foldlM_cons, hstep]
      refine ih (by omega) fun hinner => h (hinner.trans ?_)
      -- at most one mark that was counted is forgotten, and it stands in front
      have hcount : List.replicate marks c ++ c :: s = List.replicate (marks + 1) c ++ s := by
        rw [List.replicate_succ', List.append_assoc, List.singleton_append]
      rw [hcount]
      have hsplit : List.replicate (marks + 1) c =
          List.replicate (marks + 1 - min (marks + 1) 2) c ++
            List.replicate (min (marks + 1) 2) c := by
        rw [← List.replicate_add]
        congr 1
        omega
      rw [hsplit, List.append_assoc]
      exact (List.suffix_append _ _).isInfix
    · have hstep : doubledStep mark marks c = some 0 := by
        rw [doubledStep, if_neg, if_neg hc]
        rw [Bool.and_eq_true, decide_eq_true_eq, decide_eq_true_eq]
        rintro ⟨rfl, rfl⟩
        exact h ⟨[], s, rfl⟩
      rw [List.cons_append, List.foldlM_cons, hstep]
      refine ih (by omega) fun hinner => h (hinner.trans ?_)
      rw [List.replicate_zero, List.nil_append]
      exact (List.suffix_cons c s).isInfix.trans (List.suffix_append _ _).isInfix

/-- A text without two marks and a `>` is cut off with these behind it. -/
theorem cut_doubled {mark : Char} (hmark : mark ≠ '>') {s : List Char}
    (h : ¬ [mark, mark, '>'] <:+: s) (rest : List Char) :
    cut (doubledStep mark) 0 (s ++ ([mark, mark, '>'] ++ rest)) =
      .ok (s ++ [mark, mark, '>'], rest) := by
  have hrun := foldlM_doubledStep hmark (Nat.zero_le 2) h
  have hcut := cut_of_foldlM hrun (c := '>') rfl rest
  simpa using hcut

end Vendoring.Xml
