import Mathlib.Tactic.Common
import Vendoring.Xml.Token

/-!
# Nested elements

The tags of a document open and close elements.  Where each start tag has its end tag and what
stands between them is nested in the same way (`Nested`), a reader that keeps a stack of the open
elements gets through and comes back to the stack it began with (`foldlM_enter?_of_nested`).
Conversely, tokens behind which no element is open have, up to the end tag of the innermost one that
was open, only elements that are nested (`exists_nested_of_foldlM_enter?`).  So a stack decides
whether tokens are nested (`nested_iff`).
-/

namespace Vendoring.Xml

variable {t : Token} {ts : List Token} {name : List Char} {names outer : List (List Char)}

namespace Token

/-- Is the token a tag? -/
def isTag : Token → Bool
  | start _ => true
  | empty _ => true
  | close _ => true
  | _ => false

/-- The names of the open elements behind the token, innermost first. -/
def opened (names : List (List Char)) : Token → List (List Char)
  | start name => name :: names
  | close _ => names.tail
  | _ => names

/-- Can the token stand inside the elements with the given names?  An end tag must be that of the
innermost one. -/
def fits (names : List (List Char)) : Token → Bool
  | close name => names.head? = some name
  | _ => true

/-- The names of the open elements behind the token, if it can stand inside those before it. -/
def enter? (names : List (List Char)) (t : Token) : Option (List (List Char)) :=
  if t.fits names then some (t.opened names) else none

theorem enter?_eq_some_iff {names' : List (List Char)} :
    t.enter? names = some names' ↔ t.fits names = true ∧ t.opened names = names' := by
  rw [enter?, ite_eq_iff]
  simp

theorem enter?_close (name : List Char) (outer : List (List Char)) :
    (close name).enter? (name :: outer) = some outer :=
  enter?_eq_some_iff.2 ⟨decide_eq_true rfl, rfl⟩

/-- A token is one of the three tags or none. -/
theorem tag_cases (t : Token) :
    (∃ name, t = start name) ∨ (∃ name, t = empty name) ∨ (∃ name, t = close name) ∨
      t.isTag = false := by
  cases t <;> simp [isTag]

/-- What is no tag can stand anywhere and keeps the open elements. -/
theorem enter?_of_not_isTag (h : t.isTag = false) : t.enter? names = some names := by
  cases t <;> first | rfl | cases h

end Token

/-- The tokens are nested: each start tag has its end tag, with nested tokens between them. -/
inductive Nested : List Token → Prop
  | nil : Nested []
  | other {t : Token} {ts : List Token} (ht : t.isTag = false) (hs : Nested ts) : Nested (t :: ts)
  | empty {name : List Char} {ts : List Token} (hs : Nested ts) : Nested (.empty name :: ts)
  | element {name : List Char} {inside behind : List Token} (hinside : Nested inside)
    (hbehind : Nested behind) : Nested (.start name :: (inside ++ .close name :: behind))

/-- The tokens are one element with the given name: the tag of an empty element, or a start tag and
its end tag with nested tokens between them. -/
inductive IsElement (name : List Char) : List Token → Prop
  | empty : IsElement name [.empty name]
  | tags {inside : List Token} (h : Nested inside) :
    IsElement name (.start name :: (inside ++ [.close name]))

/-- An element begins and ends with a tag. -/
theorem IsElement.exists_tags (h : IsElement name ts) :
    (∃ t ∈ ts.head?, t.isTag = true) ∧ ∃ t ∈ ts.getLast?, t.isTag = true := by
  cases h with
  | empty => exact ⟨⟨_, rfl, rfl⟩, _, rfl, rfl⟩
  | tags h => exact ⟨⟨_, rfl, rfl⟩, .close name, by simp [List.getLast?_cons], rfl⟩

/-- **Behind nested tokens the same elements are open as before them.** -/
theorem foldlM_enter?_of_nested (h : Nested ts) (names : List (List Char)) :
    ts.foldlM Token.enter? names = some names := by
  induction h generalizing names with
  | nil => rfl
  | other ht _ ih =>
    rw [List.foldlM_cons, Token.enter?_of_not_isTag ht]
    exact ih names
  | empty _ ih => exact ih names
  | @element name inside behind _ _ ihinside ihbehind =>
    show (inside ++ Token.close name :: behind).foldlM Token.enter? (name :: names) = some names
    rw [List.foldlM_append, ihinside (name :: names), Option.bind_eq_bind, Option.bind_some,
      List.foldlM_cons, Token.enter?_close]
    exact ihbehind names

/-- **Up to the end of the innermost open element all is nested**, if in the end all elements are
closed. -/
theorem exists_nested_of_foldlM_enter? (h : ts.foldlM Token.enter? (name :: outer) = some []) :
    ∃ inside behind, ts = inside ++ .close name :: behind ∧ Nested inside ∧
      behind.foldlM Token.enter? outer = some [] := by
  -- by the length: behind an inner element the search for the end of the outer one begins anew
  generalize hn : ts.length = n
  induction n using Nat.strongRecOn generalizing ts name outer with
  | ind n ih =>
    cases ts with
    | nil => cases h
    | cons t ts =>
      have hshort : ts.length < n := hn ▸ Nat.lt_succ_self ts.length
      rw [List.foldlM_cons, Option.bind_eq_bind, Option.bind_eq_some_iff] at h
      obtain ⟨names, henter, hrun⟩ := h
      rcases t.tag_cases with ⟨inner, rfl⟩ | ⟨inner, rfl⟩ | ⟨found, rfl⟩ | htag
      · -- the inner element first, and then from behind it to the end of the outer one
        cases henter
        obtain ⟨inside, rest, rfl, hinside, hrest⟩ := ih ts.length hshort hrun rfl
        have hshorter : rest.length < n := by
          rw [List.length_append, List.length_cons] at hshort
          omega
        obtain ⟨inside', behind, rfl, hinside', hbehind⟩ := ih rest.length hshorter hrest rfl
        refine ⟨.start inner :: (inside ++ .close inner :: inside'), behind, ?_,
          .element hinside hinside', hbehind⟩
        rw [List.cons_append, List.append_assoc, List.cons_append]
      · cases henter
        obtain ⟨inside, behind, rfl, hinside, hbehind⟩ := ih ts.length hshort hrun rfl
        exact ⟨.empty inner :: inside, behind, rfl, .empty hinside, hbehind⟩
      · obtain ⟨hfits, rfl⟩ := Token.enter?_eq_some_iff.1 henter
        obtain rfl : name = found := Option.some.inj (of_decide_eq_true hfits)
        exact ⟨[], ts, rfl, .nil, hrun⟩
      · rw [Token.enter?_of_not_isTag htag] at henter
        cases henter
        obtain ⟨inside, behind, rfl, hinside, hbehind⟩ := ih ts.length hshort hrun rfl
        exact ⟨t :: inside, behind, rfl, .other htag hinside, hbehind⟩

/-- **A stack decides whether tokens are nested.** -/
theorem nested_iff : Nested ts ↔ ts.foldlM Token.enter? [] = some [] := by
  refine ⟨fun h => foldlM_enter?_of_nested h [], fun h => ?_⟩
  induction hn : ts.length using Nat.strongRecOn generalizing ts with
  | ind n ih =>
    cases ts with
    | nil => exact .nil
    | cons t ts =>
      have hshort : ts.length < n := hn ▸ Nat.lt_succ_self ts.length
      rw [List.foldlM_cons, Option.bind_eq_bind, Option.bind_eq_some_iff] at h
      obtain ⟨names, henter, hrun⟩ := h
      rcases t.tag_cases with ⟨name, rfl⟩ | ⟨name, rfl⟩ | ⟨name, rfl⟩ | htag
      · cases henter
        obtain ⟨inside, behind, rfl, hinside, hbehind⟩ := exists_nested_of_foldlM_enter? hrun
        have hshorter : behind.length < n := by
          rw [List.length_append, List.length_cons] at hshort
          omega
        exact .element hinside (ih behind.length hshorter hbehind rfl)
      · cases henter
        exact .empty (ih ts.length hshort hrun rfl)
      · cases henter
      · rw [Token.enter?_of_not_isTag htag] at henter
        cases henter
        exact .other htag (ih ts.length hshort hrun rfl)

end Vendoring.Xml
