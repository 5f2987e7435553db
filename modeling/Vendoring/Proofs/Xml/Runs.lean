import Mathlib.Data.List.TakeWhile
import Vendoring.Proofs.Stages
import Vendoring.Proofs.Xml.Tokens

/-!
# Reading token by token

A token is cut off without regard to what follows it (`next_rest`).  So the whole tokens at the
beginning of a document (`Reads`) stay the same whatever comes behind them, as long as it does not
go on with their text (`Reads.rest`), and a fold over the document is one over them first
(`foldTokens_of_reads`); one that succeeds is a fold over the tokens of the whole document
(`exists_reads_of_foldTokens`).  Two folds agree if their steps keep a relation between their states
(`agree_foldTokens`).
-/

namespace Vendoring.Xml

variable {σ τ ε : Type}

/-! ## Tokens in front of markup -/

/-- What is cut off does not depend on what follows. -/
theorem cutFrom_rest {step : σ → Char → Option σ} {state : σ} {taken s front rest : List Char}
    (h : cutFrom step state taken s = .ok (front, rest)) (t : List Char) :
    ∃ back, front = taken.reverse ++ back ∧
      cutFrom step state taken (back ++ t) = .ok (front, t) := by
  induction s generalizing state taken with
  | nil => cases h
  | cons c s ih =>
    rw [cutFrom] at h
    cases hstep : step state c with
    | none =>
      simp only [hstep, Except.ok.injEq, Prod.mk.injEq] at h
      refine ⟨[c], ?_, ?_⟩
      · rw [← h.1, List.reverse_cons]
      · rw [List.singleton_append, cutFrom, hstep, ← h.1]
    | some state' =>
      simp only [hstep] at h
      obtain ⟨back, hfront, hcut⟩ := ih h
      refine ⟨c :: back, ?_, ?_⟩
      · rw [hfront, List.reverse_cons, List.append_assoc, List.singleton_append]
      · rw [List.cons_append, cutFrom, hstep]
        exact hcut

theorem cut_rest {step : σ → Char → Option σ} {start : σ} {s front rest : List Char}
    (h : cut step start s = .ok (front, rest)) (t : List Char) :
    cut step start (front ++ t) = .ok (front, t) := by
  obtain ⟨back, hfront, hcut⟩ := cutFrom_rest h t
  obtain rfl : front = back := hfront
  exact hcut

theorem openTag_rest {s rest : List Char} {l : Lexeme} (h : openTag s = .ok (l, rest))
    (t : List Char) : ∃ raw, l.raw = '<' :: raw ∧ openTag (raw ++ t) = .ok (l, t) := by
  unfold openTag at h
  split at h
  · cases h
  · next front _ hcut =>
    simp only [Except.ok.injEq, Prod.mk.injEq] at h
    obtain ⟨rfl, rfl⟩ := h
    refine ⟨front, rfl, ?_⟩
    rw [openTag, cut_rest hcut]

theorem endTag_rest {s rest : List Char} {l : Lexeme} (h : endTag s = .ok (l, rest))
    (t : List Char) : ∃ raw, l.raw = '<' :: '/' :: raw ∧ endTag (raw ++ t) = .ok (l, t) := by
  unfold endTag at h
  split at h
  · cases h
  · next front _ hcut =>
    simp only [Except.ok.injEq, Prod.mk.injEq] at h
    obtain ⟨rfl, rfl⟩ := h
    refine ⟨front, rfl, ?_⟩
    rw [endTag, cut_rest hcut]

theorem instruction_rest {s rest : List Char} {l : Lexeme} (h : instruction s = .ok (l, rest))
    (t : List Char) : ∃ raw, l.raw = '<' :: '?' :: raw ∧ instruction (raw ++ t) = .ok (l, t) := by
  unfold instruction at h
  simp only at h
  split at h
  · cases h
  · next front _ hcut =>
    split at h
    · cases h
    · next hfront =>
      simp only [Except.ok.injEq, Prod.mk.injEq] at h
      obtain ⟨rfl, rfl⟩ := h
      refine ⟨front, rfl, ?_⟩
      simp only [instruction, cut_rest hcut, if_neg hfront]

theorem comment_rest {s rest : List Char} {l : Lexeme} (h : comment s = .ok (l, rest))
    (t : List Char) :
    ∃ raw, l.raw = '<' :: '!' :: '-' :: raw ∧ comment (raw ++ t) = .ok (l, t) := by
  unfold comment at h
  split at h
  · split at h
    · cases h
    · next s front _ hcut =>
      simp only [Except.ok.injEq, Prod.mk.injEq] at h
      obtain ⟨rfl, rfl⟩ := h
      refine ⟨'-' :: front, rfl, ?_⟩
      rw [List.cons_append, comment, cut_rest hcut]
  · cases h

theorem cdata_rest {s rest : List Char} {l : Lexeme} (h : cdata s = .ok (l, rest))
    (t : List Char) :
    ∃ raw, l.raw = '<' :: '!' :: '[' :: raw ∧ cdata (raw ++ t) = .ok (l, t) := by
  unfold cdata at h
  split at h
  · split at h
    · cases h
    · next s front _ hcut =>
      simp only [Except.ok.injEq, Prod.mk.injEq] at h
      obtain ⟨rfl, rfl⟩ := h
      refine ⟨'C' :: 'D' :: 'A' :: 'T' :: 'A' :: '[' :: front, rfl, ?_⟩
      simp only [List.cons_append, cdata, cut_rest hcut]
  · cases h

theorem doctype_rest {s rest : List Char} {l : Lexeme} (h : doctype s = .ok (l, rest))
    (t : List Char) :
    ∃ raw, l.raw = '<' :: '!' :: (s.take 7 ++ raw) ∧
      doctype (s.take 7 ++ (raw ++ t)) = .ok (l, t) := by
  unfold doctype at h
  simp only at h
  split at h
  · next hkeyword =>
    -- the keyword is there as a whole
    have hlength : (s.take 7).length = 7 := by
      have hkept := congrArg List.length hkeyword
      rwa [List.length_map] at hkept
    split at h
    · cases h
    · next front _ hcut =>
      split at h
      · cases h
      · next hnamed =>
        simp only [Except.ok.injEq, Prod.mk.injEq] at h
        obtain ⟨rfl, rfl⟩ := h
        refine ⟨front, rfl, ?_⟩
        simp only [doctype, List.take_left' hlength, List.drop_left' hlength, cut_rest hcut,
          if_pos hkeyword, if_neg hnamed]
  · cases h

/-- The longest run at the beginning stays the same if it is followed by something else that ends
it. -/
theorem span_rest {p : Char → Bool} {t : List Char} (ht : ∀ c ∈ t.head?, p c = false)
    (s : List Char) :
    (s.takeWhile p ++ t).takeWhile p = s.takeWhile p ∧ (s.takeWhile p ++ t).dropWhile p = t := by
  have hrun : ∀ c ∈ s.takeWhile p, p c = true := fun c hc => List.mem_takeWhile_imp hc
  have hstop : t.takeWhile p = [] ∧ t.dropWhile p = t := by
    cases t with
    | nil => exact ⟨rfl, rfl⟩
    | cons c t => simp [ht c rfl]
  rw [List.takeWhile_append_of_pos hrun, List.dropWhile_append_of_pos hrun, hstop.1, hstop.2,
    List.append_nil]
  exact ⟨rfl, rfl⟩

theorem reference_rest {s rest : List Char} {l : Lexeme} (h : reference s = .ok (l, rest))
    (t : List Char) : ∃ raw, l.raw = '&' :: raw ∧ reference (raw ++ t) = .ok (l, t) := by
  unfold reference at h
  simp only at h
  split at h
  · next hdrop =>
    simp only [Except.ok.injEq, Prod.mk.injEq] at h
    obtain ⟨rfl, rfl⟩ := h
    refine ⟨_, rfl, ?_⟩
    obtain ⟨htake, hrest⟩ := span_rest (p := isNameCharacter) (t := ';' :: t)
      (by intro c hc; cases hc; rfl) s
    simp only [reference, List.append_assoc, List.singleton_append, htake, hrest]
  · cases h

/-- A tag begins with any character that is not the mark of other markup. -/
theorem next_eq_openTag_of_plain {c : Char} (h : c ≠ '?' ∧ c ≠ '/' ∧ c ≠ '!') (s : List Char) :
    next '<' (c :: s) = openTag (c :: s) := by
  unfold next
  simp only
  split <;> simp_all

/-- **A token is the same whatever follows it**, if what follows does not go on with its text. -/
theorem next_rest {c : Char} {s rest : List Char} {l : Lexeme} (h : next c s = .ok (l, rest))
    {t : List Char} (ht : (∀ c ∈ t.head?, isTextCharacter c = false) ∨ t.head? = rest.head?) :
    ∃ raw, l.raw = c :: raw ∧ next c (raw ++ t) = .ok (l, t) := by
  unfold next at h
  split at h
  · split at h
    · obtain ⟨raw, hraw, hnext⟩ := instruction_rest h t
      exact ⟨_, hraw, hnext⟩
    · obtain ⟨raw, hraw, hnext⟩ := endTag_rest h t
      exact ⟨_, hraw, hnext⟩
    · obtain ⟨raw, hraw, hnext⟩ := comment_rest h t
      exact ⟨_, hraw, hnext⟩
    · obtain ⟨raw, hraw, hnext⟩ := cdata_rest h t
      exact ⟨_, hraw, hnext⟩
    · split at h
      · obtain ⟨raw, hraw, hnext⟩ := doctype_rest h t
        exact ⟨_, hraw, by simpa [next] using hnext⟩
      · obtain ⟨raw, hraw, hnext⟩ := doctype_rest h t
        exact ⟨_, hraw, by simpa [next] using hnext⟩
      · cases h
    · next hquestion hslash _ _ hbang =>
      obtain ⟨raw, hraw, hnext⟩ := openTag_rest h t
      obtain ⟨raw', hraw', rfl⟩ := append_of_openTag h
      obtain rfl : raw = raw' := List.tail_eq_of_cons_eq (hraw.symm.trans hraw')
      refine ⟨raw, hraw, ?_⟩
      cases raw with
      | nil =>
        obtain ⟨raw', hempty, hnone⟩ := openTag_rest h []
        obtain rfl : [] = raw' := List.tail_eq_of_cons_eq (hraw.symm.trans hempty)
        cases hnone
      | cons d raw =>
        have hplain : d ≠ '?' ∧ d ≠ '/' ∧ d ≠ '!' := by
          refine ⟨?_, ?_, ?_⟩
          · rintro rfl
            exact hquestion _ rfl
          · rintro rfl
            exact hslash _ rfl
          · rintro rfl
            exact hbang _ rfl
        rw [List.cons_append, next_eq_openTag_of_plain hplain]
        exact hnext
  · obtain ⟨raw, hraw, hnext⟩ := reference_rest h t
    exact ⟨_, hraw, hnext⟩
  · next hopen hreference =>
    simp only [Except.ok.injEq, Prod.mk.injEq] at h
    obtain ⟨rfl, rfl⟩ := h
    have hends : ∀ c ∈ t.head?, isTextCharacter c = false := by
      refine ht.elim id fun hsame c hc => ?_
      rw [hsame] at hc
      have hmatch := List.head?_dropWhile_not isTextCharacter s
      rw [Option.mem_def.1 hc] at hmatch
      simpa using hmatch
    obtain ⟨htake, hrest⟩ := span_rest hends s
    refine ⟨_, rfl, ?_⟩
    unfold next
    split
    · exact absurd rfl hopen
    · exact absurd rfl hreference
    · rw [htake, hrest]

/-! ## Runs of tokens -/

/-- The text is read as the tokens, one after the other, and then comes the rest. -/
inductive Reads : List Char → List Lexeme → List Char → Prop
  | nil (s : List Char) : Reads s [] s
  | cons {c : Char} {s rest rest' : List Char} {l : Lexeme} {ls : List Lexeme}
    (hnext : next c s = .ok (l, rest)) (hrest : Reads rest ls rest') :
    Reads (c :: s) (l :: ls) rest'

/-- The characters of the tokens and the rest make up the text. -/
theorem Reads.flatMap_raw {s rest : List Char} {ls : List Lexeme} (h : Reads s ls rest) :
    ls.flatMap Lexeme.raw ++ rest = s := by
  induction h with
  | nil s => rfl
  | cons hnext _ ih => rw [List.flatMap_cons, List.append_assoc, ih, append_of_next hnext]

/-- **The tokens of a text are the same whatever follows them**, be it nothing or other markup. -/
theorem Reads.rest {s rest t : List Char} {ls : List Lexeme} (h : Reads s ls rest)
    (ht : ∀ c ∈ t.head?, c = '<') : Reads (ls.flatMap Lexeme.raw ++ t) ls t := by
  induction h with
  | nil s => exact .nil _
  | @cons c s rest rest' l ls hnext hrest ih =>
    have hends : (∀ c ∈ (ls.flatMap Lexeme.raw ++ t).head?, isTextCharacter c = false) ∨
        (ls.flatMap Lexeme.raw ++ t).head? = rest.head? := by
      cases hrest with
      | nil =>
        refine .inl fun c hc => ?_
        rw [ht c hc]
        rfl
      | cons hnext' _ =>
        obtain ⟨raw', hraw', -⟩ := exists_raw_of_next hnext'
        refine .inr ?_
        rw [List.flatMap_cons, hraw']
        rfl
    obtain ⟨raw, hraw, hfirst⟩ := next_rest hnext hends
    rw [List.flatMap_cons, hraw, List.append_assoc, List.cons_append]
    exact .cons hfirst ih

/-- A text without a rest consists of the tokens. -/
theorem Reads.raw_eq {s : List Char} {ls : List Lexeme} (h : Reads s ls []) :
    ls.flatMap Lexeme.raw = s := by
  rw [← h.flatMap_raw, List.append_nil]

theorem Reads.append {s : List Char} {ls : List Lexeme} (h : Reads s ls []) (t : List Char) :
    Reads (s ++ '<' :: t) ls ('<' :: t) := by
  have hrest := h.rest (t := '<' :: t) fun c hc => (Option.some.inj hc).symm
  rwa [h.raw_eq] at hrest

variable {step : σ → Lexeme → Except ε σ} {fault : Fault → ε}

/-- A fold takes the first token in and goes on behind it. -/
theorem foldTokens_of_next {c : Char} {s rest : List Char} {l : Lexeme}
    (h : next c s = .ok (l, rest)) (state : σ) :
    foldTokens step fault state (c :: s) =
      (step state l).bind fun state' => foldTokens step fault state' rest := by
  rw [foldTokens]
  split
  · next e he =>
    rw [h] at he
    cases he
  · next l' rest' he =>
    rw [h] at he
    obtain ⟨rfl, rfl⟩ : l = l' ∧ rest = rest' := by simpa using he
    cases step state l <;> rfl

theorem foldTokens_of_fault {c : Char} {s : List Char} {e : Fault} (h : next c s = .error e)
    (state : σ) : foldTokens step fault state (c :: s) = .error (fault e) := by
  rw [foldTokens]
  split
  · next e' he =>
    rw [h] at he
    obtain rfl : e = e' := by simpa using he
    rfl
  · next he =>
    rw [h] at he
    cases he

/-- **A fold takes in the tokens at the beginning of a text first.** -/
theorem foldTokens_of_reads {s rest : List Char} {ls : List Lexeme} (h : Reads s ls rest)
    (state : σ) :
    foldTokens step fault state s =
      (ls.foldlM step state).bind fun state' => foldTokens step fault state' rest := by
  induction h generalizing state with
  | nil s => rfl
  | cons hnext _ ih =>
    rw [foldTokens_of_next hnext, List.foldlM_cons]
    show (step state _).bind _ = ((step state _).bind _).bind _
    cases step state _ with
    | error e => rfl
    | ok state' => exact ih state'

/-- **A fold that succeeds has read the text to its end**, and has taken in its tokens. -/
theorem exists_reads_of_foldTokens {s : List Char} {state state' : σ}
    (h : foldTokens step fault state s = .ok state') :
    ∃ ls, Reads s ls [] ∧ ls.foldlM step state = .ok state' := by
  generalize hn : s.length = n
  induction n using Nat.strongRecOn generalizing s state with
  | ind n ih =>
    cases s with
    | nil =>
      rw [foldTokens] at h
      exact ⟨[], .nil [], h⟩
    | cons c s =>
      cases hnext : next c s with
      | error e =>
        rw [foldTokens_of_fault hnext] at h
        cases h
      | ok found =>
        obtain ⟨l, rest⟩ := found
        rw [foldTokens_of_next hnext] at h
        obtain ⟨middle, hstep, hrest⟩ := bind_eq_ok_iff.1 h
        have hshort : rest.length < n := by
          rw [← hn]
          exact Nat.lt_succ_of_le (length_le_of_next hnext)
        obtain ⟨ls, hreads, hrun⟩ := ih rest.length hshort hrest rfl
        refine ⟨l :: ls, .cons hnext hreads, ?_⟩
        rw [List.foldlM_cons, hstep]
        exact hrun

/-- A text is read as tokens in one way only. -/
theorem Reads.unique {s : List Char} {ls ls' : List Lexeme} (h : Reads s ls [])
    (h' : Reads s ls' []) : ls = ls' := by
  generalize hend : ([] : List Char) = rest at h
  induction h generalizing ls' with
  | nil s =>
    subst hend
    cases h'
    rfl
  | cons hnext _ ih =>
    cases h' with
    | cons hnext' hrest' =>
      rw [hnext, Except.ok.injEq, Prod.mk.injEq] at hnext'
      obtain ⟨rfl, rfl⟩ := hnext'
      rw [ih hrest' hend]

/-- The tokens of a whole text. -/
def tokens (s : List Char) : Except Fault (List Lexeme) :=
  foldTokens (fun ls l => .ok (ls ++ [l])) id [] s

/-- **The tokens of a text are those it is read as.** -/
theorem tokens_eq_ok_iff {s : List Char} {ls : List Lexeme} :
    tokens s = .ok ls ↔ Reads s ls [] := by
  have hcollect : ∀ ls collected : List Lexeme,
      ls.foldlM (fun ls l => (.ok (ls ++ [l]) : Except Fault (List Lexeme))) collected =
        .ok (collected ++ ls) := by
    intro ls
    induction ls with
    | nil => simp [pure, Except.pure]
    | cons l ls ih => simp [ih]
  constructor
  · intro h
    obtain ⟨ls', hreads, hrun⟩ := exists_reads_of_foldTokens h
    rw [hcollect, Except.ok.injEq, List.nil_append] at hrun
    exact hrun ▸ hreads
  · intro h
    rw [tokens, foldTokens_of_reads h, hcollect]
    show foldTokens _ _ _ [] = _
    rw [foldTokens, List.nil_append]

/-! ## Agreement -/

/-- Two results agree if they are the same fault, or values that are related. -/
def Agree (R : σ → τ → Prop) : Except ε σ → Except ε τ → Prop
  | .ok a, .ok b => R a b
  | .error e, .error e' => e = e'
  | _, _ => False

/-- What is made of results that agree agrees. -/
theorem Agree.map {σ' τ' : Type} {R : σ → τ → Prop} {S : σ' → τ' → Prop} {x : Except ε σ}
    {y : Except ε τ} {f : σ → σ'} {g : τ → τ'} (h : Agree R x y)
    (hmap : ∀ a b, R a b → S (f a) (g b)) : Agree S (x.map f) (y.map g) := by
  cases x <;> cases y <;> first | exact h | exact h.elim | exact hmap _ _ h

/-- What is done with results that agree agrees. -/
theorem Agree.bind {σ' τ' : Type} {R : σ → τ → Prop} {S : σ' → τ' → Prop} {x : Except ε σ}
    {y : Except ε τ} {f : σ → Except ε σ'} {g : τ → Except ε τ'} (h : Agree R x y)
    (hbind : ∀ a b, R a b → Agree S (f a) (g b)) : Agree S (x.bind f) (y.bind g) := by
  cases x <;> cases y <;> first | exact h | exact h.elim | exact hbind _ _ h

/-- What is done with results that agree is the same, if it is the same for related values. -/
theorem Agree.bind_eq {σ' : Type} {R : σ → τ → Prop} {x : Except ε σ} {y : Except ε τ}
    {f : σ → Except ε σ'} {g : τ → Except ε σ'} (h : Agree R x y)
    (hbind : ∀ a b, R a b → f a = g b) : x.bind f = y.bind g := by
  cases x <;> cases y <;> first | exact congrArg _ h | exact h.elim | exact hbind _ _ h

/-- **Folds agree if their steps do.** -/
theorem agree_foldTokens {R : σ → τ → Prop} {step' : τ → Lexeme → Except ε τ}
    (hstep : ∀ l a b, l.raw ≠ [] → R a b → Agree R (step a l) (step' b l)) (s : List Char) :
    ∀ a b, R a b → Agree R (foldTokens step fault a s) (foldTokens step' fault b s) := by
  generalize hn : s.length = n
  induction n using Nat.strongRecOn generalizing s with
  | ind n ih =>
    intro a b hab
    cases s with
    | nil =>
      rw [foldTokens, foldTokens]
      exact hab
    | cons c s =>
      cases hnext : next c s with
      | error e =>
        rw [foldTokens_of_fault hnext, foldTokens_of_fault hnext]
        rfl
      | ok found =>
        obtain ⟨l, rest⟩ := found
        obtain ⟨raw, hraw, -⟩ := exists_raw_of_next hnext
        have hshort : rest.length < n := by
          rw [← hn]
          exact Nat.lt_succ_of_le (length_le_of_next hnext)
        rw [foldTokens_of_next hnext, foldTokens_of_next hnext]
        have hone := hstep l a b (by rw [hraw]; exact List.cons_ne_nil _ _) hab
        exact hone.bind fun a' b' hab' => ih rest.length hshort rest rfl a' b' hab'

end Vendoring.Xml
