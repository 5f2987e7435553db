import Vendoring.Proofs.Archive.Needed

/-!
# Minimizing again, and with more to keep

What is needed depends on the archive, so it could change when classes are left out.  It does not:
whatever a needed class refers to is needed itself and stays, so the same names are reached in what
is left (`needed_minimize_iff`).  This holds as well if the archive was minimized with more to keep,
since more to keep makes more needed (`Needed.mono`).

The main result is `minimize_settles_and_grows`.
-/

namespace Vendoring.Archive

variable {keep keep' : List String} {a : Archive} {m : MergedEntry} {name : String}

/-! ## More to keep -/

/-- A class that is covered by a list of names is covered by every list that has these names. -/
theorem matchesKeep_mono (h : keep ⊆ keep') (hname : matchesKeep keep name = true) :
    matchesKeep keep' name = true := by
  obtain ⟨front, hfront, hcovered⟩ := List.any_eq_true.1 hname
  exact List.any_eq_true.2 ⟨front, h hfront, hcovered⟩

theorem IsRoot.mono (h : keep ⊆ keep') (hroot : IsRoot keep a name) : IsRoot keep' a name := by
  cases hroot with
  | own hm hclass horigin => exact .own hm hclass horigin
  | kept hm hclass hkept => exact .kept hm hclass (matchesKeep_mono h hkept)
  | provider hm hclass hservice hline => exact .provider hm hclass hservice hline
  | reference hm hclass hservice hmem => exact .reference hm hclass hservice hmem

/-- **More to keep makes more needed.** -/
theorem Needed.mono (h : keep ⊆ keep') (hneeded : Needed keep a name) : Needed keep' a name := by
  induction hneeded with
  | root hroot => exact .root (hroot.mono h)
  | reference _ hget hmem ih => exact .reference ih hget hmem

/-! ## What is needed in what is left -/

/-- An entry that is no class is left. -/
theorem mem_minimize_of_not_class (hm : m ∈ a.rows) (hclass : m.entry.className? = none) :
    m ∈ (minimize keep a).1.rows := by
  refine mem_minimize_iff_needed.2 ⟨hm, fun name hname => ?_⟩
  rw [hclass] at hname
  cases hname

/-- The class of a needed name is left. -/
theorem mem_minimize_of_needed (hm : m ∈ a.rows) (hclass : m.entry.className? = some name)
    (hneeded : Needed keep a name) : m ∈ (minimize keep a).1.rows := by
  refine mem_minimize_iff_needed.2 ⟨hm, fun other hother => ?_⟩
  rwa [← Option.some.inj (hclass.symm.trans hother)]

/-- What is a root in what is left was one before. -/
theorem IsRoot.of_minimize (h : IsRoot keep (minimize keep' a).1 name) : IsRoot keep a name := by
  have hrow : ∀ m ∈ (minimize keep' a).1.rows, m ∈ a.rows :=
    fun m hm => (mem_minimize_iff.1 hm).1
  cases h with
  | own hm hclass horigin => exact .own (hrow _ hm) hclass horigin
  | kept hm hclass hkept => exact .kept (hrow _ hm) hclass hkept
  | provider hm hclass hservice hline => exact .provider (hrow _ hm) hclass hservice hline
  | reference hm hclass hservice hmem => exact .reference (hrow _ hm) hclass hservice hmem

/-- A root is one in what is left, if no less is to be kept there. -/
theorem IsRoot.minimize (h : keep ⊆ keep') (hroot : IsRoot keep a name) :
    IsRoot keep (minimize keep' a).1 name := by
  cases hroot with
  | own hm hclass horigin =>
    exact .own (mem_minimize_of_needed hm hclass (.root (.own hm hclass horigin))) hclass horigin
  | kept hm hclass hkept =>
    have hneeded : Needed keep' a name := .root (.kept hm hclass (matchesKeep_mono h hkept))
    exact .kept (mem_minimize_of_needed hm hclass hneeded) hclass hkept
  | provider hm hclass hservice hline =>
    exact .provider (mem_minimize_of_not_class hm hclass) hclass hservice hline
  | reference hm hclass hservice hmem =>
    exact .reference (mem_minimize_of_not_class hm hclass) hclass hservice hmem

/-- **In what is left the same names are needed as before.** -/
theorem needed_minimize_iff (h : keep ⊆ keep') :
    Needed keep (minimize keep' a).1 name ↔ Needed keep a name := by
  constructor
  · intro hneeded
    induction hneeded with
    | root hroot => exact .root hroot.of_minimize
    | reference _ hget hmem ih =>
      obtain ⟨hm, hclass⟩ := get?_class_iff.1 hget
      exact .reference ih (get?_class_iff.2 ⟨(mem_minimize_iff.1 hm).1, hclass⟩) hmem
  · intro hneeded
    induction hneeded with
    | root hroot => exact .root (hroot.minimize h)
    | reference hname hget hmem ih =>
      -- the class that refers to the name is needed, so it is still there
      obtain ⟨hm, hclass⟩ := get?_class_iff.1 hget
      have hleft := mem_minimize_of_needed hm hclass (hname.mono h)
      exact .reference ih (get?_class_iff.2 ⟨hleft, hclass⟩) hmem

/-! ## Minimizing twice -/

/-- To minimize with more to keep before makes no difference. -/
theorem fst_minimize_minimize (h : keep ⊆ keep') :
    (minimize keep (minimize keep' a).1).1 = (minimize keep a).1 := by
  refine Table.ext_rows fun m => ?_
  simp only [mem_minimize_iff_needed, needed_minimize_iff h]
  constructor
  · rintro ⟨⟨hm, -⟩, hneeded⟩
    exact ⟨hm, hneeded⟩
  · rintro ⟨hm, hneeded⟩
    exact ⟨⟨hm, fun name hname => (hneeded name hname).mono h⟩, hneeded⟩

theorem snd_minimize (keep : List String) (a : Archive) :
    (minimize keep a).2 = a.size - (minimize keep a).1.size := rfl

/-- **Minimizing settles, and it leaves more if more is to be kept.**  To minimize once more changes
nothing and drops nothing.  With more names to keep, every entry that was left is left as it is.
Neither the order nor the repetition of the names matters. -/
theorem minimize_settles_and_grows (keep : List String) (a : Archive) :
    minimize keep (minimize keep a).1 = ((minimize keep a).1, 0) ∧
      (∀ keep', keep ⊆ keep' →
        ∀ m ∈ (minimize keep a).1.rows, m ∈ (minimize keep' a).1.rows) ∧
      ∀ keep', (∀ front, front ∈ keep ↔ front ∈ keep') → minimize keep' a = minimize keep a := by
  refine ⟨?_, ?_, ?_⟩
  · have hsame := fst_minimize_minimize (a := a) (List.Subset.refl keep)
    refine Prod.ext hsame ?_
    rw [snd_minimize, hsame, Nat.sub_self]
  · intro keep' h m hm
    obtain ⟨hrow, hneeded⟩ := mem_minimize_iff_needed.1 hm
    exact mem_minimize_iff_needed.2 ⟨hrow, fun name hname => (hneeded name hname).mono h⟩
  · intro keep' h
    have hsame : (minimize keep' a).1 = (minimize keep a).1 := by
      refine Table.ext_rows fun m => ?_
      have hneeded : ∀ name, Needed keep' a name ↔ Needed keep a name :=
        fun name => ⟨.mono fun front => (h front).2, .mono fun front => (h front).1⟩
      simp only [mem_minimize_iff_needed, hneeded]
    refine Prod.ext hsame ?_
    rw [snd_minimize, snd_minimize, hsame]

/-- A library of a parser that reads tokens, a writer that refers to the parser, and a resource. -/
def parserLibrary : Archive :=
  let lib : Origin := .dependency ⟨"org.lib", "lib", none⟩
  Table.ofList MergedEntry.path
    [⟨{ path := "lib/Parser.class", references := ["lib/Token", "java/lang/Object"] }, lib⟩,
      ⟨{ path := "lib/Token.class", references := ["lib/Parser"] }, lib⟩,
      ⟨{ path := "lib/Writer.class", references := ["lib/Parser"] }, lib⟩,
      ⟨{ path := "lib/messages.properties" }, lib⟩,
      ⟨{ path := "org/app/Main.class" }, .project⟩]

/-- The writer is dropped if the parser is kept, and nothing if the writer is kept as well. -/
theorem minimize_settles_and_grows_of_library :
    ["lib.Parser"] ⊆ ["lib.Writer", "lib.Parser", "lib.Parser"] ∧
      (minimize ["lib.Parser"] parserLibrary).2 = 1 ∧
      (minimize ["lib.Writer", "lib.Parser", "lib.Parser"] parserLibrary).2 = 0 ∧
      minimize ["lib.Parser"] (minimize ["lib.Parser"] parserLibrary).1 =
        ((minimize ["lib.Parser"] parserLibrary).1, 0) ∧
      (∀ m ∈ (minimize ["lib.Parser"] parserLibrary).1.rows,
        m ∈ (minimize ["lib.Writer", "lib.Parser", "lib.Parser"] parserLibrary).1.rows) ∧
      minimize ["lib.Writer", "lib.Parser", "lib.Parser"] parserLibrary =
        minimize ["lib.Parser", "lib.Writer"] parserLibrary := by
  have hsubset : ["lib.Parser"] ⊆ ["lib.Writer", "lib.Parser", "lib.Parser"] := by simp
  obtain ⟨hagain, hmore, -⟩ := minimize_settles_and_grows ["lib.Parser"] parserLibrary
  obtain ⟨-, -, hsame⟩ := minimize_settles_and_grows ["lib.Parser", "lib.Writer"] parserLibrary
  exact ⟨hsubset, by decide +kernel, by decide +kernel, hagain, hmore _ hsubset,
    hsame _ fun front => by simp [or_comm]⟩

end Vendoring.Archive
