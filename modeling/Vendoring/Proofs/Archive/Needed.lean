import Mathlib.Logic.Function.Iterate
import Vendoring.Archive.Minimize
import Vendoring.Proofs.Archive.Paths
import Vendoring.Proofs.Table

/-!
# Minimizing keeps exactly what is needed

A class is needed if it is a root or if a needed class refers to it.  The references may run in
circles, so this is a least set and not a recursion; here it is an inductive predicate, `Needed`.

The search takes one name after the other off its list (`visit`).  Four facts hold before and after
every step (`Searching`): the names on the list are needed, so are the classes taken so far, and no
root and no reference of a taken class has been lost.  When the list is empty, the first two say
that nothing too much was taken and the last two that nothing is missing.

## Main results

* `exists_iterate_visit`: the search comes to an end;
* `searching_visit` and `searching_iterate`: the invariant, for a step and for a run;
* `minimize_keeps_needed`: what minimizing keeps, and how many entries it drops.
-/

namespace Vendoring.Archive

variable {keep : List String} {a : Archive}

/-! ## What is needed -/

/-- The names that are needed whatever refers to them. -/
inductive IsRoot (keep : List String) (a : Archive) : String → Prop
  | own {m : MergedEntry} {name : String} : m ∈ a.rows → m.entry.className? = some name →
      m.origin = .project → IsRoot keep a name
  | kept {m : MergedEntry} {name : String} : m ∈ a.rows → m.entry.className? = some name →
      matchesKeep keep name = true → IsRoot keep a name
  | provider {m : MergedEntry} {service line : String} : m ∈ a.rows → m.entry.className? = none →
      m.entry.serviceName? = some service → line ∈ m.entry.textLines →
      IsRoot keep a (respell '.' '/' line)
  | reference {m : MergedEntry} {name : String} : m ∈ a.rows → m.entry.className? = none →
      m.entry.serviceName? = none → name ∈ m.entry.references → IsRoot keep a name

/-- The least set of names that holds the roots and, with the name of a class of the archive, all
names that the class refers to. -/
inductive Needed (keep : List String) (a : Archive) : String → Prop
  | root {name : String} : IsRoot keep a name → Needed keep a name
  | reference {name referred : String} {m : MergedEntry} : Needed keep a name →
      a.get? (name ++ ArchiveEntry.classEnd) = some m → referred ∈ m.entry.references →
      Needed keep a referred

/-- The roots that the search starts with are the names that are needed anyway. -/
theorem mem_roots_iff {name : String} : name ∈ roots keep a ↔ IsRoot keep a name := by
  rw [roots, List.mem_flatMap]
  constructor
  · rintro ⟨m, hm, hname⟩
    rw [rootsOf] at hname
    cases hc : m.entry.className? with
    | some c =>
      simp only [hc] at hname
      split at hname
      · next h =>
        obtain rfl : name = c := by simpa using hname
        rcases Bool.or_eq_true_iff.1 h with h | h
        · exact .own hm hc (by simpa [MergedEntry.isOwn] using h)
        · exact .kept hm hc h
      · simp at hname
    | none =>
      simp only [hc] at hname
      cases hs : m.entry.serviceName? with
      | some service =>
        obtain ⟨line, hline, rfl⟩ : ∃ line ∈ m.entry.textLines, respell '.' '/' line = name := by
          simpa [hs] using hname
        exact .provider hm hc hs hline
      | none => exact .reference hm hc hs (by simpa [hs] using hname)
  · intro h
    cases h with
    | own hm hc ho => exact ⟨_, hm, by simp [rootsOf, hc, MergedEntry.isOwn, ho]⟩
    | kept hm hc hk => exact ⟨_, hm, by simp [rootsOf, hc, hk]⟩
    | provider hm hc hs hl =>
      exact ⟨_, hm, by simpa [rootsOf, hc, hs] using ⟨_, hl, rfl⟩⟩
    | reference hm hc hs hr => exact ⟨_, hm, by simpa [rootsOf, hc, hs] using hr⟩

/-! ## The search -/

/-- The classes of an archive. -/
def classes (a : Archive) : List MergedEntry := a.rows.filter (·.entry.className?.isSome)

/-- One step of the search: the first name is taken off the list, and if its class has not been
taken yet, it is taken now and the names it refers to come to the end of the list. -/
def visit : List MergedEntry × List String → List MergedEntry × List String
  | (idle, []) => (idle, [])
  | (idle, name :: needed) =>
    match idle.find? (isClass name) with
    | none => (idle, needed)
    | some m => (without name idle, needed ++ m.entry.references)

/-- The search comes to an end: after finitely many steps no name is on the list, and what has not
been taken is what `sweep` leaves. -/
theorem exists_iterate_visit (idle : List MergedEntry) (needed : List String) :
    ∃ n, visit^[n] (idle, needed) = (sweep idle needed, []) := by
  induction idle, needed using sweep.induct with
  | case1 idle => exact ⟨0, by simp [sweep]⟩
  | case2 idle name needed hfind ih =>
    obtain ⟨n, hn⟩ := ih
    refine ⟨n + 1, ?_⟩
    rw [Function.iterate_succ_apply, visit, hfind, hn, sweep]
    split
    · rfl
    · next h => simp [hfind] at h
  | case3 idle name needed m hfind _ ih =>
    obtain ⟨n, hn⟩ := ih
    refine ⟨n + 1, ?_⟩
    rw [Function.iterate_succ_apply, visit, hfind, hn, sweep]
    split
    · next h => simp [hfind] at h
    · next m' h =>
      obtain rfl : m = m' := Option.some.inj (hfind.symm.trans h)
      rfl

/-- Has the search dealt with a name, or will it?  The name is on the list, or its class is not
among those that have not been taken. -/
def Covered (state : List MergedEntry × List String) (name : String) : Prop :=
  name ∈ state.2 ∨ ∀ m ∈ state.1, m.entry.className? ≠ some name

/-- What holds throughout the search. -/
structure Searching (keep : List String) (a : Archive)
    (state : List MergedEntry × List String) : Prop where
  /-- Only classes of the archive are waiting. -/
  idle_subset : ∀ m ∈ state.1, m ∈ classes a
  /-- Every name on the list is needed. -/
  listed_needed : ∀ name ∈ state.2, Needed keep a name
  /-- Every class that was taken is needed. -/
  taken_needed : ∀ m ∈ a.rows, ∀ name, m.entry.className? = some name → m ∉ state.1 →
    Needed keep a name
  /-- No root is lost. -/
  roots_covered : ∀ name, IsRoot keep a name → Covered state name
  /-- No reference of a class that was taken is lost. -/
  references_covered : ∀ m ∈ a.rows, m.entry.className?.isSome → m ∉ state.1 →
    ∀ name ∈ m.entry.references, Covered state name

/-- The search starts with all classes waiting and the roots on the list. -/
theorem searching_start : Searching keep a (classes a, roots keep a) where
  idle_subset _ hm := hm
  listed_needed _ h := .root (mem_roots_iff.1 h)
  taken_needed m hm name hname hidle :=
    absurd (List.mem_filter.2 ⟨hm, by simp [hname]⟩) hidle
  roots_covered _ h := .inl (mem_roots_iff.2 h)
  references_covered m hm hclass hidle := absurd (List.mem_filter.2 ⟨hm, hclass⟩) hidle

theorem isClass_iff {name : String} {m : MergedEntry} :
    isClass name m = true ↔ m.entry.className? = some name := by
  simp [isClass]

theorem mem_without_iff {name : String} {idle : List MergedEntry} {m : MergedEntry} :
    m ∈ without name idle ↔ m ∈ idle ∧ m.entry.className? ≠ some name := by
  simp [without, isClass]

/-- A name without a waiting class may leave the list. -/
theorem searching_skip {idle : List MergedEntry} {name : String} {needed : List String}
    (hfind : idle.find? (isClass name) = none) (h : Searching keep a (idle, name :: needed)) :
    Searching keep a (idle, needed) := by
  have hcovered : ∀ other, Covered (idle, name :: needed) other → Covered (idle, needed) other := by
    rintro other (hmem | hidle)
    · rcases List.mem_cons.1 hmem with rfl | hmem
      · exact .inr fun m hm hname => List.find?_eq_none.1 hfind m hm (isClass_iff.2 hname)
      · exact .inl hmem
    · exact .inr hidle
  exact
    { idle_subset := h.idle_subset
      listed_needed := fun other hmem => h.listed_needed other (List.mem_cons_of_mem _ hmem)
      taken_needed := h.taken_needed
      roots_covered := fun other hroot => hcovered other (h.roots_covered other hroot)
      references_covered := fun m hm hclass hidle other hmem =>
        hcovered other (h.references_covered m hm hclass hidle other hmem) }

/-- A waiting class of the first name may be taken. -/
theorem searching_take {idle : List MergedEntry} {name : String} {needed : List String}
    {m : MergedEntry} (hfind : idle.find? (isClass name) = some m)
    (h : Searching keep a (idle, name :: needed)) :
    Searching keep a (without name idle, needed ++ m.entry.references) := by
  have hidle : m ∈ idle := List.mem_of_find?_eq_some hfind
  have hname : m.entry.className? = some name := isClass_iff.1 (List.find?_some hfind)
  have hrow : m ∈ a.rows := List.mem_of_mem_filter (h.idle_subset m hidle)
  have hneeded : Needed keep a name := h.listed_needed name (List.mem_cons_self ..)
  -- a class that is no longer waiting was taken before, or it is the one taken now
  have htaken : ∀ m' ∈ a.rows, m' ∉ without name idle → m' ∉ idle ∨ m' = m := by
    intro m' hm' hgone
    rw [mem_without_iff, not_and_or, not_not] at hgone
    exact hgone.imp_right fun hname' => eq_of_className? hm' hrow hname' hname
  have hcovered : ∀ other, Covered (idle, name :: needed) other →
      Covered (without name idle, needed ++ m.entry.references) other := by
    rintro other (hmem | hother)
    · rcases List.mem_cons.1 hmem with rfl | hmem
      · exact .inr fun m' hm' => (mem_without_iff.1 hm').2
      · exact .inl (List.mem_append_left _ hmem)
    · exact .inr fun m' hm' => hother m' (mem_without_iff.1 hm').1
  exact
    { idle_subset := fun m' hm' => h.idle_subset m' (mem_without_iff.1 hm').1
      listed_needed := by
        intro other hmem
        rcases List.mem_append.1 hmem with hmem | hmem
        · exact h.listed_needed other (List.mem_cons_of_mem _ hmem)
        · exact .reference hneeded (get?_class_iff.2 ⟨hrow, hname⟩) hmem
      taken_needed := by
        intro m' hm' name' hname' hgone
        rcases htaken m' hm' hgone with hgone | rfl
        · exact h.taken_needed m' hm' name' hname' hgone
        · rwa [← Option.some.inj (hname.symm.trans hname')]
      roots_covered := fun other hroot => hcovered other (h.roots_covered other hroot)
      references_covered := by
        intro m' hm' hclass hgone other hmem
        rcases htaken m' hm' hgone with hgone | rfl
        · exact hcovered other (h.references_covered m' hm' hclass hgone other hmem)
        · exact .inl (List.mem_append_right _ hmem) }

/-- A step keeps the invariant. -/
theorem searching_visit {state : List MergedEntry × List String} (h : Searching keep a state) :
    Searching keep a (visit state) := by
  obtain ⟨idle, needed⟩ := state
  cases needed with
  | nil => exact h
  | cons name needed =>
    simp only [visit]
    cases hfind : idle.find? (isClass name) with
    | none => exact searching_skip hfind h
    | some m => exact searching_take hfind h

/-- A run keeps the invariant. -/
theorem searching_iterate (keep : List String) (a : Archive) (n : Nat) :
    Searching keep a (visit^[n] (classes a, roots keep a)) := by
  induction n with
  | zero => exact searching_start
  | succ n ih =>
    rw [Function.iterate_succ_apply']
    exact searching_visit ih

/-- The invariant holds at the end of the search, when nothing is on the list. -/
theorem searching_unneeded (keep : List String) (a : Archive) :
    Searching keep a (unneeded keep a, []) := by
  obtain ⟨n, hn⟩ := exists_iterate_visit (classes a) (roots keep a)
  have h := searching_iterate keep a n
  rwa [hn] at h

/-! ## What is left -/

/-- At the end no needed name belongs to a class that is still waiting. -/
theorem className?_ne_of_needed {name : String} (h : Needed keep a name) :
    ∀ m ∈ unneeded keep a, m.entry.className? ≠ some name := by
  have hend := searching_unneeded keep a
  induction h with
  | root hroot =>
    rcases hend.roots_covered _ hroot with hlisted | hidle
    · simp at hlisted
    · exact hidle
  | @reference name referred m _ hget hmem ih =>
    obtain ⟨hrow, hname⟩ := get?_class_iff.1 hget
    have hidle : m ∉ unneeded keep a := fun hm => ih m hm hname
    rcases hend.references_covered m hrow (by simp [hname]) hidle referred hmem with hlisted | hidle
    · simp at hlisted
    · exact hidle

/-- The classes that the search leaves are those that are not needed. -/
theorem mem_unneeded_iff {m : MergedEntry} :
    m ∈ unneeded keep a ↔
      m ∈ a.rows ∧ ∃ name, m.entry.className? = some name ∧ ¬ Needed keep a name := by
  have hend := searching_unneeded keep a
  constructor
  · intro hm
    obtain ⟨hrow, hclass⟩ := List.mem_filter.1 (hend.idle_subset m hm)
    obtain ⟨name, hname⟩ := Option.isSome_iff_exists.1 hclass
    exact ⟨hrow, name, hname, fun hneeded => className?_ne_of_needed hneeded m hm hname⟩
  · rintro ⟨hrow, name, hname, hneeded⟩
    by_contra hm
    exact hneeded (hend.taken_needed m hrow name hname hm)

/-- An entry is dropped by minimizing if it is one of the classes that are not needed. -/
theorem mem_minimize_iff {m : MergedEntry} :
    m ∈ (minimize keep a).1.rows ↔ m ∈ a.rows ∧ m ∉ unneeded keep a := by
  have hpath : m ∈ a.rows →
      (m.path ∈ (unneeded keep a).map MergedEntry.path ↔ m ∈ unneeded keep a) := by
    intro hm
    constructor
    · intro h
      obtain ⟨m', hm', hkey⟩ := List.mem_map.1 h
      rwa [← a.eq_of_key_eq (mem_unneeded_iff.1 hm').1 hm hkey]
    · exact List.mem_map_of_mem
  simp only [minimize, Table.filter, List.mem_filter, Bool.not_eq_true', List.contains_eq_mem,
    decide_eq_false_iff_not]
  constructor
  · rintro ⟨hm, h⟩
    exact ⟨hm, fun hm' => h ((hpath hm).2 hm')⟩
  · rintro ⟨hm, h⟩
    exact ⟨hm, fun hm' => h ((hpath hm).1 hm')⟩

/-- Entries that are no classes are left, and so are the classes that are needed. -/
theorem mem_minimize_iff_needed {m : MergedEntry} :
    m ∈ (minimize keep a).1.rows ↔
      m ∈ a.rows ∧ ∀ name, m.entry.className? = some name → Needed keep a name := by
  rw [mem_minimize_iff, mem_unneeded_iff]
  refine and_congr_right fun hm => ?_
  constructor
  · intro h name hname
    by_contra hneeded
    exact h ⟨hm, name, hname, hneeded⟩
  · rintro h ⟨-, name, hname, hneeded⟩
    exact hneeded (h name hname)

/-- **Minimizing keeps exactly what is needed.**  It comes to an end, and it leaves all entries that
are no classes together with the classes that are needed, as they were.  The number it gives is
that of the entries it drops. -/
theorem minimize_keeps_needed (keep : List String) (a : Archive) :
    (∃ n, visit^[n] (classes a, roots keep a) = (unneeded keep a, [])) ∧
    (∀ m, m ∈ (minimize keep a).1.rows ↔
      m ∈ a.rows ∧ ∀ name, m.entry.className? = some name → Needed keep a name) ∧
    (minimize keep a).2 = (a.rows.filter fun m => m ∉ (minimize keep a).1.rows).length := by
  refine ⟨exists_iterate_visit _ _, fun m => mem_minimize_iff_needed, ?_⟩
  have hsize : (minimize keep a).2 = a.size - (minimize keep a).1.size := rfl
  rw [hsize, minimize, Table.size_sub_size_filter]
  congr 1
  refine List.filter_congr fun m hm => ?_
  simp [Table.filter, hm]

end Vendoring.Archive
