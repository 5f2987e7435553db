import Vendoring.Proofs.Pom.Alike
import Vendoring.Proofs.Xml.Nesting

/-!
# The outline of a reading

Whether the reader goes on with a token is decided by little of what it knows: by the elements that
are open and by whether the root has begun (`Outline`).  The text, the document and the positions
have no part in it, so a run over tokens is one over outlines (`outline_foldlM`).

The outline comes to its end exactly on the tokens of one element with the local name `project`,
nested within, with anything that is no tag before and behind it, where all references stand for
characters (`foldlM_take_eq_some_iff`).
-/

namespace Vendoring.Xml

/-- Does the token stand for characters, if it is a reference? -/
def Token.IsResolved : Token → Prop
  | .reference name => ∃ c, resolve name = .ok c
  | _ => True

end Vendoring.Xml

namespace Vendoring.Pom

open Xml (Token Nested IsElement)

/-- What decides whether the reader goes on. -/
structure Outline where
  /-- The names of the open elements, innermost first. -/
  opened : List (List Char) := []
  /-- Has the root element begun? -/
  rooted : Bool := false

namespace Outline

variable {o o' : Outline} {t : Token} {ts : List Token}

/-- Begins an element with the given local name: inside another one, or as the only root. -/
def root (o : Outline) (name : List Char) : Option Outline :=
  if o.opened ≠ [] then some o
  else if o.rooted = false ∧ String.ofList name = "project" then some { o with rooted := true }
  else none

/-- The outline behind a token, if the token can come next. -/
def take (o : Outline) : Token → Option Outline
  | .start name =>
    (o.root (Xml.localName name)).map fun o => { o with opened := name :: o.opened }
  | .empty name => o.root (Xml.localName name)
  | .close name =>
    if o.opened.head? = some name then some { o with opened := o.opened.tail } else none
  | .reference name => (Xml.resolve name).toOption.map fun _ => o
  | _ => some o

/-! ## Inside and outside the root -/

/-- What is no tag keeps the outline, if it can be read. -/
theorem take_of_not_isTag (h : t.isTag = false) : o.take t = some o' ↔ t.IsResolved ∧ o = o' := by
  cases t with
  | reference name =>
    rw [take, Token.IsResolved]
    cases Xml.resolve name with
    | ok c => simp [Except.toOption]
    | error e => simp [Except.toOption]
  | start name | empty name | close name => cases h
  | text s | cdata s | comment | instruction | doctype => simp [take, Token.IsResolved]

theorem root_of_opened (h : o.opened ≠ []) (name : List Char) : o.root name = some o := by
  rw [root, if_pos h]

/-- **Inside the root** the open elements alone decide. -/
theorem take_inside (h : o.opened ≠ []) :
    o.take t = some o' ↔
      t.IsResolved ∧ t.enter? o.opened = some o'.opened ∧ o.rooted = o'.rooted := by
  obtain ⟨names, rooted⟩ := o
  obtain ⟨names', rooted'⟩ := o'
  have hroot : ∀ name, root ⟨names, rooted⟩ name = some ⟨names, rooted⟩ := root_of_opened h
  rcases t.tag_cases with ⟨name, rfl⟩ | ⟨name, rfl⟩ | ⟨name, rfl⟩ | htag
  · simp [take, hroot, Token.IsResolved, Token.enter?_eq_some_iff, Token.fits, Token.opened]
  · simp [take, hroot, Token.IsResolved, Token.enter?_eq_some_iff, Token.fits, Token.opened]
  · simp [take, Token.IsResolved, Token.enter?_eq_some_iff, Token.fits, Token.opened, ite_eq_iff,
      and_assoc]
  · rw [take_of_not_isTag htag, Token.enter?_of_not_isTag htag, Option.some.injEq,
      Outline.mk.injEq]

/-- **Behind the root** there are no more tags. -/
theorem take_behind : take ⟨[], true⟩ t = some o' ↔
    t.isTag = false ∧ t.IsResolved ∧ ⟨[], true⟩ = o' := by
  rcases t.tag_cases with ⟨name, rfl⟩ | ⟨name, rfl⟩ | ⟨name, rfl⟩ | htag
  · simp [take, root, Token.isTag]
  · simp [take, root, Token.isTag]
  · simp [take, Token.isTag]
  · rw [take_of_not_isTag htag, and_iff_right htag]

/-- The tokens keep the outline, if none of them is a tag. -/
theorem foldlM_take_of_not_isTag (htag : ∀ t ∈ ts, t.isTag = false)
    (hresolved : ∀ t ∈ ts, t.IsResolved) : ts.foldlM take o = some o := by
  induction ts with
  | nil => rfl
  | cons t ts ih =>
    rw [List.forall_mem_cons] at htag hresolved
    rw [List.foldlM_cons, (take_of_not_isTag htag.1).2 ⟨hresolved.1, rfl⟩]
    exact ih htag.2 hresolved.2

/-- All references in tokens that are taken in stand for characters. -/
theorem isResolved_of_foldlM_take (h : ts.foldlM take o = some o') :
    ∀ t ∈ ts, t.IsResolved := by
  induction ts generalizing o with
  | nil => exact fun t ht => absurd ht List.not_mem_nil
  | cons t ts ih =>
    rw [List.foldlM_cons, Option.bind_eq_bind, Option.bind_eq_some_iff] at h
    obtain ⟨middle, htake, hrun⟩ := h
    refine List.forall_mem_cons.2 ⟨?_, ih hrun⟩
    rcases t.tag_cases with ⟨name, rfl⟩ | ⟨name, rfl⟩ | ⟨name, rfl⟩ | htag
    · trivial
    · trivial
    · trivial
    · exact ((take_of_not_isTag htag).1 htake).1

/-- Behind the root the end is reached on tokens that are no tags. -/
theorem foldlM_take_behind_iff :
    ts.foldlM take ⟨[], true⟩ = some ⟨[], true⟩ ↔
      (∀ t ∈ ts, t.isTag = false) ∧ ∀ t ∈ ts, t.IsResolved := by
  refine ⟨fun h => ⟨?_, isResolved_of_foldlM_take h⟩,
    fun h => foldlM_take_of_not_isTag h.1 h.2⟩
  induction ts with
  | nil => exact fun t ht => absurd ht List.not_mem_nil
  | cons t ts ih =>
    rw [List.foldlM_cons, Option.bind_eq_bind, Option.bind_eq_some_iff] at h
    obtain ⟨middle, htake, hrun⟩ := h
    obtain ⟨htag, -, rfl⟩ := take_behind.1 htake
    exact List.forall_mem_cons.2 ⟨htag, ih hrun⟩

/-- Nested tokens inside the root keep the outline. -/
theorem foldlM_take_of_nested (h : Nested ts) (hresolved : ∀ t ∈ ts, t.IsResolved)
    (hopened : o.opened ≠ []) : ts.foldlM take o = some o := by
  induction h generalizing o with
  | nil => rfl
  | @other t ts ht _ ih =>
    rw [List.forall_mem_cons] at hresolved
    rw [List.foldlM_cons, (take_of_not_isTag ht).2 ⟨hresolved.1, rfl⟩]
    exact ih hresolved.2 hopened
  | @empty name ts _ ih =>
    rw [List.forall_mem_cons] at hresolved
    rw [List.foldlM_cons, take, root_of_opened hopened]
    exact ih hresolved.2 hopened
  | @element name inside behind _ _ ihinside ihbehind =>
    rw [List.forall_mem_cons, List.forall_mem_append, List.forall_mem_cons] at hresolved
    obtain ⟨-, hinside, -, hbehind⟩ := hresolved
    have hback : take ⟨name :: o.opened, o.rooted⟩ (.close name) = some o := by
      simp [take]
    rw [List.foldlM_cons, take, root_of_opened hopened]
    show (inside ++ Token.close name :: behind).foldlM take ⟨name :: o.opened, o.rooted⟩ = some o
    rw [List.foldlM_append, ihinside hinside (List.cons_ne_nil _ _), Option.bind_eq_bind,
      Option.bind_some, List.foldlM_cons, hback]
    exact ihbehind hbehind hopened

/-- A token that can come next fits into the open elements. -/
theorem enter?_of_take (h : o.take t = some o') : t.enter? o.opened = some o'.opened := by
  by_cases hopened : o.opened = []
  · obtain ⟨names, rooted⟩ := o
    obtain rfl : names = [] := hopened
    cases rooted with
    | true =>
      obtain ⟨htag, -, rfl⟩ := take_behind.1 h
      exact Token.enter?_of_not_isTag htag
    | false =>
      rcases t.tag_cases with ⟨name, rfl⟩ | ⟨name, rfl⟩ | ⟨name, rfl⟩ | htag
      · obtain ⟨-, rfl⟩ := by simpa [take, root] using h
        rfl
      · obtain ⟨-, rfl⟩ := by simpa [take, root] using h
        rfl
      · simp [take] at h
      · obtain ⟨-, rfl⟩ := (take_of_not_isTag htag).1 h
        exact Token.enter?_of_not_isTag htag
  · exact ((take_inside hopened).1 h).2.1

theorem foldlM_enter?_of_foldlM_take (h : ts.foldlM take o = some o') :
    ts.foldlM Token.enter? o.opened = some o'.opened := by
  induction ts generalizing o with
  | nil =>
    cases h
    rfl
  | cons t ts ih =>
    rw [List.foldlM_cons, Option.bind_eq_bind, Option.bind_eq_some_iff] at h ⊢
    obtain ⟨middle, htake, hrun⟩ := h
    exact ⟨middle.opened, enter?_of_take htake, ih hrun⟩

/-- Behind its start tag the root is closed by an end tag with nested tokens before it. -/
theorem exists_nested_of_foldlM_take {name : List Char}
    (h : ts.foldlM take ⟨[name], true⟩ = some ⟨[], true⟩) :
    ∃ inside behind, ts = inside ++ .close name :: behind ∧ Nested inside ∧
      behind.foldlM take ⟨[], true⟩ = some ⟨[], true⟩ := by
  obtain ⟨inside, behind, rfl, hinside, -⟩ :=
    Xml.exists_nested_of_foldlM_enter? (foldlM_enter?_of_foldlM_take h)
  -- the stack has found the end of the root, and the outline passes it in the same way
  refine ⟨inside, behind, rfl, hinside, ?_⟩
  have hresolved := isResolved_of_foldlM_take h
  rw [List.forall_mem_append] at hresolved
  rwa [List.foldlM_append, foldlM_take_of_nested hinside hresolved.1 (List.cons_ne_nil _ _),
    Option.bind_eq_bind, Option.bind_some, List.foldlM_cons, take, List.head?_cons, if_pos rfl]
    at h

/-! ## Whole documents -/

/-- The tokens are an element with the local name `project`. -/
def IsProject (ts : List Token) : Prop :=
  ∃ name, String.ofList (Xml.localName name) = "project" ∧ IsElement name ts

/-- An element with the local name `project` leads from the beginning behind the root. -/
theorem foldlM_take_of_isProject (h : IsProject ts) (hresolved : ∀ t ∈ ts, t.IsResolved) :
    ts.foldlM take {} = some ⟨[], true⟩ := by
  obtain ⟨name, hname, helement⟩ := h
  have hroot : root {} (Xml.localName name) = some ⟨[], true⟩ := by simp [root, hname]
  cases helement with
  | empty => simp [take, hroot]
  | @tags inside hinside =>
    simp only [List.forall_mem_cons, List.forall_mem_append] at hresolved
    have hopened : take {} (.start name) = some ⟨[name], true⟩ := by simp [take, hroot]
    rw [List.foldlM_cons, hopened, Option.bind_eq_bind, Option.bind_some, List.foldlM_append,
      foldlM_take_of_nested hinside hresolved.2.1 (List.cons_ne_nil _ _)]
    simp [take]

/-- **The end is reached exactly on one element with the local name `project`** with no other tags
before and behind it, if all references stand for characters. -/
theorem foldlM_take_eq_some_iff :
    ts.foldlM take {} = some ⟨[], true⟩ ↔
      (∀ t ∈ ts, t.IsResolved) ∧
      ∃ before root after, ts = before ++ (root ++ after) ∧ IsProject root ∧
        ∀ t ∈ before ++ after, t.isTag = false := by
  constructor
  · intro h
    refine ⟨isResolved_of_foldlM_take h, ?_⟩
    induction ts with
    | nil => cases h
    | cons t ts ih =>
      rw [List.foldlM_cons, Option.bind_eq_bind, Option.bind_eq_some_iff] at h
      obtain ⟨middle, htake, hrun⟩ := h
      rcases t.tag_cases with ⟨name, rfl⟩ | ⟨name, rfl⟩ | ⟨name, rfl⟩ | htag
      · obtain ⟨hname, rfl⟩ := by simpa [take, root] using htake
        obtain ⟨inside, after, rfl, hinside, hafter⟩ := exists_nested_of_foldlM_take hrun
        refine ⟨[], .start name :: (inside ++ [.close name]), after, by simp,
          ⟨name, hname, .tags hinside⟩, ?_⟩
        exact (foldlM_take_behind_iff.1 hafter).1
      · obtain ⟨hname, rfl⟩ := by simpa [take, root] using htake
        refine ⟨[], [.empty name], ts, rfl, ⟨name, hname, .empty⟩, ?_⟩
        exact (foldlM_take_behind_iff.1 hrun).1
      · simp [take] at htake
      · obtain ⟨-, rfl⟩ := (take_of_not_isTag htag).1 htake
        obtain ⟨before, root, after, rfl, hroot, houter⟩ := ih hrun
        exact ⟨t :: before, root, after, rfl, hroot, List.forall_mem_cons.2 ⟨htag, houter⟩⟩
  · rintro ⟨hresolved, before, root, after, rfl, hroot, houter⟩
    rw [List.forall_mem_append, List.forall_mem_append] at hresolved
    obtain ⟨hbefore, hwithin, hafter⟩ := hresolved
    rw [List.forall_mem_append] at houter
    rw [List.foldlM_append, foldlM_take_of_not_isTag houter.1 hbefore, Option.bind_eq_bind,
      Option.bind_some, List.foldlM_append, foldlM_take_of_isProject hroot hwithin,
      Option.bind_eq_bind, Option.bind_some, foldlM_take_of_not_isTag houter.2 hafter]

end Outline

/-! ## Readings -/

namespace Progress

variable {line : Nat → Nat} {p q : Progress} {l : Xml.Lexeme} {ls : List Xml.Lexeme}

/-- The outline of a progress. -/
def outline (p : Progress) : Outline := ⟨p.opened, p.rooted⟩

theorem outline_root (p : Progress) (name : List Char) :
    ((p.root name).map outline).toOption = p.outline.root name := by
  cases hopened : p.opened with
  | cons n names => simp [root, Outline.root, outline, hopened, Except.map, Except.toOption]
  | nil =>
    cases hrooted : p.rooted with
    | true => simp [root, Outline.root, outline, hopened, hrooted, Except.map, Except.toOption]
    | false =>
      by_cases hname : String.ofList name = "project" <;>
        simp [root, Outline.root, outline, hopened, hrooted, hname, Except.map, Except.toOption]

/-- **A token is taken in exactly if the outline goes on with it**, and then changes the outline in
the same way. -/
theorem outline_take (line : Nat → Nat) (p : Progress) (t : Token) :
    ((p.take line t).map outline).toOption = p.outline.take t := by
  cases t with
  | start name =>
    rw [take, startElement, Outline.take, ← outline_root]
    cases p.root (Xml.localName name) <;> rfl
  | empty name =>
    rw [take, emptyElement, Outline.take, ← outline_root]
    cases p.root (Xml.localName name) with
    | error e => rfl
    | ok p' =>
      simp only [map_ok]
      split <;> rfl
  | close name =>
    rw [take, Outline.take]
    cases hopened : p.opened with
    | nil => simp [endElement_of_nil hopened, outline, hopened, Except.toOption]
    | cons expected outer =>
      have hkeeps := p.harvest_keeps.2.1
      by_cases hname : name = expected
      · simp [endElement_of_opened hopened, outline, hopened, hname, hkeeps, Except.toOption]
      · simp [endElement_of_opened hopened, outline, hopened, hname, Ne.symm hname,
          Except.toOption]
  | reference name =>
    rw [take, Outline.take]
    cases Xml.resolve name <;> rfl
  | text s | cdata s | comment | instruction | doctype => rfl

theorem outline_step (line : Nat → Nat) (p : Progress) (l : Xml.Lexeme) :
    ((p.step line l).map outline).toOption = p.outline.take l.token := by
  rw [← outline_take line, step]
  cases p.take line l.token <;> rfl

/-- **A run over tokens is one over outlines.** -/
theorem outline_foldlM (line : Nat → Nat) (p : Progress) (ls : List Xml.Lexeme) :
    ((ls.foldlM (step line) p).map outline).toOption =
      (ls.map Xml.Lexeme.token).foldlM Outline.take p.outline := by
  induction ls generalizing p with
  | nil => rfl
  | cons l ls ih =>
    rw [List.foldlM_cons, List.map_cons, List.foldlM_cons, ← outline_step line]
    cases hstep : p.step line l with
    | error e => rfl
    | ok q => exact ih q

/-- What a step that succeeds leaves open. -/
theorem opened_of_step (h : p.step line l = .ok q) : q.opened = l.token.opened p.opened := by
  have htake : p.outline.take l.token = some q.outline := by
    rw [← outline_step line, h]
    rfl
  exact (Token.enter?_eq_some_iff.1 (Outline.enter?_of_take htake)).2.symm

/-- A document ends exactly where the outline has come to its end. -/
theorem exists_finish_iff : (∃ doc, p.finish = .ok doc) ↔ p.outline = ⟨[], true⟩ := by
  rw [finish, outline, Outline.mk.injEq]
  cases p.opened with
  | cons name outer => simp
  | nil => cases p.rooted <;> simp

end Progress

end Vendoring.Pom
