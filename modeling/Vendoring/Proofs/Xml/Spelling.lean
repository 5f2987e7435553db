import Vendoring.Proofs.Xml.Nesting
import Vendoring.Proofs.Xml.Runs

/-!
# How tokens are spelled

What is cut off as a token is spelled as markup of its kind (`Token.SpelledBy`): a comment stands
between `<!--` and the first `-->`, a tag between `<` and the first `>` outside quotes, and so on.
This is read off the automata that look for the ends: the characters before the one on which an
automaton stops are those it gets through (`exists_foldlM_of_cut`), and these do not hold the end
that it looks for.
-/

namespace Vendoring.Xml

variable {σ : Type} {step : σ → Char → Option σ}

/-! ## What automata get through -/

theorem exists_foldlM_of_cutFrom {state : σ} {taken s front rest : List Char}
    (h : cutFrom step state taken s = .ok (front, rest)) :
    ∃ body c state', front = taken.reverse ++ (body ++ [c]) ∧
      body.foldlM step state = some state' ∧ step state' c = none := by
  induction s generalizing state taken with
  | nil => cases h
  | cons c s ih =>
    rw [cutFrom] at h
    cases hstep : step state c with
    | none =>
      simp only [hstep, Except.ok.injEq, Prod.mk.injEq] at h
      exact ⟨[], c, state, by simp [← h.1], rfl, hstep⟩
    | some middle =>
      simp only [hstep] at h
      obtain ⟨body, c', state', hfront, hbody, hstop⟩ := ih h
      refine ⟨c :: body, c', state', by simp [hfront], ?_, hstop⟩
      rw [List.foldlM_cons, hstep]
      exact hbody

/-- **What is cut off ends in the first character on which the automaton stops.** -/
theorem exists_foldlM_of_cut {start : σ} {s front rest : List Char}
    (h : cut step start s = .ok (front, rest)) :
    ∃ body c state, front = body ++ [c] ∧ body.foldlM step start = some state ∧
      step state c = none :=
  exists_foldlM_of_cutFrom h

theorem tagStep_eq_none_iff {quote : Option Char} {c : Char} :
    tagStep quote c = none ↔ quote = none ∧ c = '>' := by
  unfold tagStep
  split <;> simp_all

theorem instructionStep_eq_none_iff {question : Bool} {c : Char} :
    instructionStep question c = none ↔ question = true ∧ c = '>' := by
  simp [instructionStep]

theorem doubledStep_eq_none_iff {mark c : Char} {marks : Nat} :
    doubledStep mark marks c = none ↔ c = '>' ∧ marks = 2 := by
  simp [doubledStep]

/-- The search for the end of a declaration stops on a `>`. -/
theorem eq_of_doctypeStep_eq_none {state : DoctypeState} {c : Char}
    (h : doctypeStep state c = none) : c = '>' := by
  unfold doctypeStep at h
  split at h <;> first | rfl | simp at h
  exact (tagStep_eq_none_iff.1 h).2

/-- Two lists end alike if their last elements are the same and those before them end alike. -/
theorem concat_suffix_concat_iff {α : Type} {l l' : List α} {a b : α} :
    l ++ [a] <:+ l' ++ [b] ↔ a = b ∧ l <:+ l' := by
  have hinner : l.reverse <+: l'.reverse ↔ l <:+ l' := List.reverse_prefix
  rw [← List.reverse_prefix, ← hinner, List.reverse_concat, List.reverse_concat,
    List.cons_prefix_cons]

/-- The search for the end of an instruction gets through no `?>`; its state tells whether the last
character was `?`. -/
theorem of_foldlM_instructionStep {state : Bool} {s : List Char}
    (h : s.foldlM instructionStep true = some state) :
    (state = true ↔ ['?'] <:+ '?' :: s) ∧ ¬ "?>".toList <:+: '?' :: s := by
  induction s using List.reverseRecOn generalizing state with
  | nil =>
    cases h
    decide
  | append_singleton s c ih =>
    rw [List.foldlM_append, Option.bind_eq_bind, Option.bind_eq_some_iff] at h
    obtain ⟨question, hrun, hstep⟩ := h
    obtain ⟨hquestion, hinfix⟩ := ih hrun
    have hend : "?>".toList = ['?'] ++ ['>'] := rfl
    rw [List.foldlM_cons, Option.bind_eq_bind, Option.bind_eq_some_iff] at hstep
    obtain ⟨state', hstep, hpure⟩ := hstep
    cases hpure
    by_cases hstop : question = true ∧ c = '>'
    · rw [instructionStep_eq_none_iff.2 hstop] at hstep
      cases hstep
    · obtain rfl : decide (c = '?') = state := by simpa [instructionStep, hstop] using hstep
      rw [← List.cons_append, List.infix_concat_iff, hend, concat_suffix_concat_iff, ← hquestion]
      refine ⟨?_, ?_⟩
      · rw [List.singleton_suffix_append_singleton_iff]
        simp [eq_comm]
      · rintro (⟨hc, hq⟩ | hinner)
        · exact hstop ⟨hq, hc.symm⟩
        · exact hinfix hinner

/-- The search for two marks and a `>` gets through no such three; its state counts the marks at the
end, up to two. -/
theorem of_foldlM_doubledStep {mark : Char} {marks : Nat} {s : List Char}
    (h : s.foldlM (doubledStep mark) 0 = some marks) :
    marks ≤ 2 ∧ (1 ≤ marks ↔ [mark] <:+ s) ∧ (marks = 2 ↔ [mark, mark] <:+ s) ∧
      ¬ [mark, mark, '>'] <:+: s := by
  induction s using List.reverseRecOn generalizing marks with
  | nil =>
    cases h
    simp
  | append_singleton s c ih =>
    rw [List.foldlM_append, Option.bind_eq_bind, Option.bind_eq_some_iff] at h
    obtain ⟨before, hrun, hstep⟩ := h
    obtain ⟨hle, hone, htwo, hinfix⟩ := ih hrun
    rw [List.foldlM_cons, Option.bind_eq_bind, Option.bind_eq_some_iff] at hstep
    obtain ⟨marks', hstep, hpure⟩ := hstep
    cases hpure
    have hsingle : [mark] <:+ s ++ [c] ↔ mark = c := List.singleton_suffix_append_singleton_iff
    have hdouble : [mark, mark] <:+ s ++ [c] ↔ mark = c ∧ 1 ≤ before :=
      (concat_suffix_concat_iff (l := [mark])).trans (and_congr_right fun _ => hone.symm)
    have hend : [mark, mark, '>'] <:+ s ++ [c] ↔ '>' = c ∧ before = 2 :=
      (concat_suffix_concat_iff (l := [mark, mark])).trans (and_congr_right fun _ => htwo.symm)
    rw [hsingle, hdouble, List.infix_concat_iff, hend]
    by_cases hstop : c = '>' ∧ before = 2
    · rw [doubledStep_eq_none_iff.2 hstop] at hstep
      cases hstep
    · obtain rfl : (if c = mark then min (before + 1) 2 else 0) = marks := by
        simpa [doubledStep, hstop] using hstep
      refine ⟨?_, ?_, ?_, ?_⟩
      · split <;> omega
      · by_cases hc : c = mark
        · rw [if_pos hc]
          exact iff_of_true (by omega) hc.symm
        · rw [if_neg hc]
          exact iff_of_false (by omega) (Ne.symm hc)
      · by_cases hc : c = mark
        · rw [if_pos hc, and_iff_right hc.symm]
          omega
        · rw [if_neg hc]
          exact iff_of_false (by omega) fun h => hc h.1.symm
      · rintro (⟨hc, hbefore⟩ | hinner)
        · exact hstop ⟨hc.symm, hbefore⟩
        · exact hinfix hinner

/-! ## Spellings -/

/-- The characters spell the token. -/
inductive Token.SpelledBy : Token → List Char → Prop
  /-- A start tag stands between `<` and the first `>` outside quotes. -/
  | start {content : List Char} (hfirst : ∀ c ∈ content.head?, c ≠ '?' ∧ c ≠ '/' ∧ c ≠ '!')
    (hlast : content.getLast? ≠ some '/') (hquotes : content.foldlM tagStep none = some none) :
    (Token.start (tagName content)).SpelledBy ('<' :: (content ++ ['>']))
  /-- The tag of an empty element ends in `/>`. -/
  | empty {content : List Char}
    (hfirst : ∀ c ∈ (content ++ ['/']).head?, c ≠ '?' ∧ c ≠ '/' ∧ c ≠ '!')
    (hquotes : (content ++ ['/']).foldlM tagStep none = some none) :
    (Token.empty (tagName content)).SpelledBy ('<' :: (content ++ ['/', '>']))
  /-- An end tag begins with `</`. -/
  | close {content : List Char} (hquotes : content.foldlM tagStep none = some none) :
    (Token.close (closingName content)).SpelledBy ('<' :: '/' :: (content ++ ['>']))
  | text {s : List Char} (hnonempty : s ≠ []) (hplain : ∀ c ∈ s, isTextCharacter c = true) :
    (Token.text s).SpelledBy s
  | cdata {s : List Char} (hinner : ¬ "]]>".toList <:+: s) :
    (Token.cdata s).SpelledBy ("<![CDATA[".toList ++ (s ++ "]]>".toList))
  | reference {name : List Char} (hname : ∀ c ∈ name, isNameCharacter c = true) :
    (Token.reference name).SpelledBy ('&' :: (name ++ [';']))
  | comment {s : List Char} (hinner : ¬ "-->".toList <:+: s) :
    Token.comment.SpelledBy ("<!--".toList ++ (s ++ "-->".toList))
  /-- An instruction, or the declaration of the document, does not end in its first mark. -/
  | instruction {s : List Char} (hinner : ¬ "?>".toList <:+: '?' :: s) :
    Token.instruction.SpelledBy ("<?".toList ++ (s ++ "?>".toList))
  /-- A document type declaration has a keyword in letters of any case and is not blank. -/
  | doctype {keyword s : List Char} (hkeyword : keyword.map Char.toUpper = "DOCTYPE".toList)
    (hnamed : s.all isSpace = false)
    (hend : ∃ state, s.foldlM doctypeStep (.outside none) = some state ∧
      doctypeStep state '>' = none) :
    Token.doctype.SpelledBy ('<' :: '!' :: (keyword ++ (s ++ ['>'])))

/-- All tags begin with `<`. -/
theorem Token.SpelledBy.exists_cons {t : Token} {raw : List Char} (h : t.SpelledBy raw)
    (htag : t.isTag = true) : ∃ s, raw = '<' :: s := by
  cases h <;> first | exact ⟨_, rfl⟩ | cases htag

variable {s rest : List Char} {l : Lexeme}

/-- What the search for the end of a tag cuts off ends in the first `>` outside quotes. -/
theorem exists_content_of_cut {front : List Char} (h : cut tagStep none s = .ok (front, rest)) :
    ∃ content, front = content ++ ['>'] ∧ content.foldlM tagStep none = some none := by
  obtain ⟨content, c, state, rfl, hrun, hstop⟩ := exists_foldlM_of_cut h
  obtain ⟨rfl, rfl⟩ := tagStep_eq_none_iff.1 hstop
  exact ⟨content, rfl, hrun⟩

/-- What the search for two marks and a `>` cuts off ends in the first such three. -/
theorem exists_inner_of_cut {mark : Char} {front : List Char}
    (h : cut (doubledStep mark) 0 s = .ok (front, rest)) :
    ∃ inner, front = inner ++ [mark, mark, '>'] ∧ ¬ [mark, mark, '>'] <:+: inner := by
  obtain ⟨body, c, marks, rfl, hrun, hstop⟩ := exists_foldlM_of_cut h
  obtain ⟨rfl, rfl⟩ := doubledStep_eq_none_iff.1 hstop
  obtain ⟨-, -, htwo, hinfix⟩ := of_foldlM_doubledStep hrun
  obtain ⟨inner, rfl⟩ := htwo.1 rfl
  exact ⟨inner, by simp, fun hinner => hinfix (hinner.trans (List.infix_append_left ..))⟩

theorem spelledBy_of_openTag (h : openTag s = .ok (l, rest))
    (hfirst : ∀ c ∈ s.head?, c ≠ '?' ∧ c ≠ '/' ∧ c ≠ '!') : l.token.SpelledBy l.raw := by
  unfold openTag at h
  split at h
  · cases h
  · next front _ hcut =>
    simp only [Except.ok.injEq, Prod.mk.injEq] at h
    obtain ⟨rfl, rfl⟩ := h
    have happend := append_of_cut hcut
    obtain ⟨content, rfl, hquotes⟩ := exists_content_of_cut hcut
    have hcontent : ∀ c ∈ content.head?, c ≠ '?' ∧ c ≠ '/' ∧ c ≠ '!' := by
      intro c hc
      apply hfirst
      rw [← happend, List.append_assoc, List.head?_append, Option.mem_def.1 hc]
      rfl
    rw [List.dropLast_concat]
    by_cases hlast : content.getLast? = some '/'
    · obtain ⟨inner, rfl⟩ := List.getLast?_eq_some_iff.1 hlast
      rw [if_pos hlast, List.dropLast_concat, List.append_assoc]
      exact .empty hcontent hquotes
    · rw [if_neg hlast]
      exact .start hcontent hlast hquotes

theorem spelledBy_of_endTag (h : endTag s = .ok (l, rest)) : l.token.SpelledBy l.raw := by
  unfold endTag at h
  split at h
  · cases h
  · next front _ hcut =>
    simp only [Except.ok.injEq, Prod.mk.injEq] at h
    obtain ⟨rfl, rfl⟩ := h
    obtain ⟨content, rfl, hquotes⟩ := exists_content_of_cut hcut
    rw [List.dropLast_concat]
    exact .close hquotes

theorem spelledBy_of_instruction (h : instruction s = .ok (l, rest)) :
    l.token.SpelledBy l.raw := by
  unfold instruction at h
  simp only at h
  split at h
  · cases h
  · next front _ hcut =>
    split at h
    · cases h
    · next hlong =>
      simp only [Except.ok.injEq, Prod.mk.injEq] at h
      obtain ⟨rfl, rfl⟩ := h
      obtain ⟨body, c, question, rfl, hrun, hstop⟩ := exists_foldlM_of_cut hcut
      obtain ⟨rfl, rfl⟩ := instructionStep_eq_none_iff.1 hstop
      obtain ⟨hquestion, hinfix⟩ := of_foldlM_instructionStep hrun
      -- the mark that ends the instruction is not the one that begins it
      rcases List.eq_nil_or_concat body with rfl | ⟨inner, last, rfl⟩
      · exact absurd rfl hlong
      · rw [List.concat_eq_append] at hquestion hinfix ⊢
        obtain rfl : '?' = last := by simpa using hquestion
        have hinner : ¬ "?>".toList <:+: '?' :: inner :=
          fun hinner => hinfix (hinner.trans (List.infix_append_left ..))
        rw [List.append_assoc]
        exact .instruction hinner

theorem spelledBy_of_comment (h : comment s = .ok (l, rest)) : l.token.SpelledBy l.raw := by
  unfold comment at h
  split at h
  · split at h
    · cases h
    · next front _ hcut =>
      simp only [Except.ok.injEq, Prod.mk.injEq] at h
      obtain ⟨rfl, rfl⟩ := h
      obtain ⟨inner, rfl, hinner⟩ := exists_inner_of_cut hcut
      exact .comment hinner
  · cases h

theorem spelledBy_of_cdata (h : cdata s = .ok (l, rest)) : l.token.SpelledBy l.raw := by
  unfold cdata at h
  split at h
  · split at h
    · cases h
    · next front _ hcut =>
      simp only [Except.ok.injEq, Prod.mk.injEq] at h
      obtain ⟨rfl, rfl⟩ := h
      obtain ⟨inner, rfl, hinner⟩ := exists_inner_of_cut hcut
      have hlength : (inner ++ [']', ']', '>']).length - 3 = inner.length := by simp
      rw [hlength, List.take_left]
      exact .cdata hinner
  · cases h

theorem spelledBy_of_doctype (h : doctype s = .ok (l, rest)) : l.token.SpelledBy l.raw := by
  unfold doctype at h
  simp only at h
  split at h
  · next hkeyword =>
    split at h
    · cases h
    · next front _ hcut =>
      split at h
      · cases h
      · next hnamed =>
        simp only [Except.ok.injEq, Prod.mk.injEq] at h
        obtain ⟨rfl, rfl⟩ := h
        obtain ⟨body, c, state, rfl, hrun, hstop⟩ := exists_foldlM_of_cut hcut
        obtain rfl := eq_of_doctypeStep_eq_none hstop
        rw [List.dropLast_concat, Bool.not_eq_true] at hnamed
        exact .doctype hkeyword hnamed ⟨state, hrun, hstop⟩
  · cases h

theorem spelledBy_of_reference (h : reference s = .ok (l, rest)) : l.token.SpelledBy l.raw := by
  unfold reference at h
  simp only at h
  split at h
  · simp only [Except.ok.injEq, Prod.mk.injEq] at h
    obtain ⟨rfl, rfl⟩ := h
    exact .reference fun c hc => List.mem_takeWhile_imp hc
  · cases h

/-- **What is cut off as a token is spelled as one.** -/
theorem spelledBy_of_next {c : Char} (h : next c s = .ok (l, rest)) :
    l.token.SpelledBy l.raw := by
  unfold next at h
  split at h
  · split at h
    · exact spelledBy_of_instruction h
    · exact spelledBy_of_endTag h
    · exact spelledBy_of_comment h
    · exact spelledBy_of_cdata h
    · split at h
      · exact spelledBy_of_doctype h
      · exact spelledBy_of_doctype h
      · cases h
    · next hquestion hslash _ _ hbang =>
      refine spelledBy_of_openTag h fun c hc => ?_
      obtain ⟨s, rfl⟩ := List.head?_eq_some_iff.1 (Option.mem_def.1 hc)
      refine ⟨?_, ?_, ?_⟩
      · rintro rfl
        exact hquestion _ rfl
      · rintro rfl
        exact hslash _ rfl
      · rintro rfl
        exact hbang _ rfl
  · exact spelledBy_of_reference h
  · next hopen hreference =>
    simp only [Except.ok.injEq, Prod.mk.injEq] at h
    obtain ⟨rfl, rfl⟩ := h
    refine .text (List.cons_ne_nil _ _) (List.forall_mem_cons.2 ⟨?_, fun c hc => ?_⟩)
    · simp only [isTextCharacter, Bool.and_eq_true, decide_eq_true_eq]
      exact ⟨hopen, hreference⟩
    · exact List.mem_takeWhile_imp hc

/-- **All tokens of a text are spelled as tokens.** -/
theorem Reads.spelledBy {ls : List Lexeme} (h : Reads s ls rest) :
    ∀ l ∈ ls, l.token.SpelledBy l.raw := by
  induction h with
  | nil s => exact fun l hl => absurd hl List.not_mem_nil
  | cons hnext _ ih => exact List.forall_mem_cons.2 ⟨spelledBy_of_next hnext, ih⟩

end Vendoring.Xml
