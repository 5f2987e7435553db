/-!
# Cutting markup off a text

The end of a piece of markup is found by an automaton that looks at one character after the other
until it stops.  `cut` runs such an automaton and divides the text after the character on which it
stopped; on a text that ends first it gives the state reached, which tells what was missing.
-/

namespace Vendoring.Xml

variable {σ : Type}

/-- Divides a text after the first character on which the automaton `step` stops.  The characters
in `taken` were read before, the latest first. -/
def cutFrom (step : σ → Char → Option σ) :
    σ → (taken : List Char) → List Char → Except σ (List Char × List Char)
  | state, _, [] => .error state
  | state, taken, c :: rest =>
    match step state c with
    | none => .ok ((c :: taken).reverse, rest)
    | some state => cutFrom step state (c :: taken) rest

/-- Divides a text after the first character on which the automaton stops. -/
def cut (step : σ → Char → Option σ) (start : σ) (s : List Char) :
    Except σ (List Char × List Char) :=
  cutFrom step start [] s

/-- Nothing is lost in cutting. -/
theorem append_of_cutFrom {step : σ → Char → Option σ} {state : σ} {taken s front rest : List Char}
    (h : cutFrom step state taken s = .ok (front, rest)) :
    front ++ rest = taken.reverse ++ s := by
  induction s generalizing state taken with
  | nil => simp [cutFrom] at h
  | cons c s ih =>
    simp only [cutFrom] at h
    split at h
    · simp only [Except.ok.injEq, Prod.mk.injEq] at h
      obtain ⟨rfl, rfl⟩ := h
      simp
    · simpa using ih h

/-- Nothing is lost in cutting. -/
theorem append_of_cut {step : σ → Char → Option σ} {start : σ} {s front rest : List Char}
    (h : cut step start s = .ok (front, rest)) : front ++ rest = s := by
  simpa using append_of_cutFrom h

/-! ## The automata -/

/-- Looks for `>` outside quotes; the state is the quote that is open. -/
def tagStep : Option Char → Char → Option (Option Char)
  | none, '>' => none
  | none, c => some (if c = '\'' ∨ c = '"' then some c else none)
  | some quote, c => some (if c = quote then none else some quote)

/-- Looks for `?>`; the state tells whether the last character was `?`. -/
def instructionStep (question : Bool) (c : Char) : Option Bool :=
  if question && c = '>' then none else some (c = '?')

/-- Looks for two marks and a `>` after them; the state counts the marks read last, up to two. -/
def doubledStep (mark : Char) (marks : Nat) (c : Char) : Option Nat :=
  if c = '>' && marks = 2 then none else some (if c = mark then min (marks + 1) 2 else 0)

/-- Where the reading of a document type declaration stands. -/
inductive DoctypeState
  /-- Before the internal subset, outside or inside quotes. -/
  | outside (quote : Option Char)
  /-- In the internal subset, between its declarations. -/
  | subset
  /-- Behind a `<` in the subset, with the characters read since. -/
  | opening (read : List Char)
  /-- In a declaration whose quoted values may hold `>`. -/
  | declaration (quote : Option Char)
  /-- In other markup, which the next `>` ends. -/
  | markup
  | instruction (question : Bool)
  | comment (dashes : Nat)
  /-- Behind the internal subset. -/
  | closing
  deriving DecidableEq

/-- The state behind `<` and the characters `read` of the subset.  The `?` that begins an
instruction is not one that may end it. -/
def DoctypeState.opened (read : List Char) : DoctypeState :=
  let quoting := ["!ENTITY", "!ATTLIST", "!NOTATION"].map String.toList
  if read = ['?'] then .instruction false
  else if read = ['!', '-', '-'] then .comment 0
  else if quoting.contains read then .declaration none
  else if (['!', '-', '-'] :: quoting).any read.isPrefixOf then .opening read
  else if read.getLast? = some '>' then .subset
  else .markup

/-- Looks for the `>` that ends a document type declaration. -/
def doctypeStep : DoctypeState → Char → Option DoctypeState
  | .outside none, '>' => none
  | .outside none, '[' => some .subset
  | .outside quote, c => (tagStep quote c).map .outside
  | .subset, ']' => some .closing
  | .subset, '<' => some (.opening [])
  | .subset, _ => some .subset
  | .opening read, c => some (.opened (read ++ [c]))
  | .declaration quote, c => some ((tagStep quote c).elim .subset .declaration)
  | .markup, c => some (if c = '>' then .subset else .markup)
  | .instruction question, c =>
    some ((instructionStep question c).elim .subset .instruction)
  | .comment dashes, c => some ((doubledStep '-' dashes c).elim .subset .comment)
  | .closing, '>' => none
  | .closing, _ => some .closing

end Vendoring.Xml
