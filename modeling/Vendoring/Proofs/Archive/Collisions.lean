import Mathlib.Data.List.Dedup
import Vendoring.Proofs.Archive.Provenance

/-!
# Collisions of relocated entries

Several entries may come to one path.  Relocation keeps one of them: the project's own before those
of dependencies, and among these the one with the smallest old path (`Chosen`).  Since it places one
entry after the other and skips those that come to a taken path, its number counts the entries that
stay and have moved; this is kept by every entry that is placed (`snd_placed`).

* `relocate_collisions`: which entries stay, and how many of them moved.
* `keepsOwn_iff`: the project's own entries all stay exactly if no two of them come to one path.
* `not_keepsOwn_of_taken_path`: an entry of the project that gives way to another one.
-/

namespace Vendoring

namespace Archive

variable {rules : List RelocationRule} {a : Archive} {m kept : MergedEntry} {path : String}

/-! ## The entry that stays -/

/-- An entry to be kept among those that come to its path: one of the project's own, unless there is
none, and of these the one with the smallest old path in the order of bytes. -/
structure Chosen (rules : List RelocationRule) (a : Archive) (m : MergedEntry) : Prop where
  mem : m ∈ a.rows
  own : m.isOwn = true ∨
    ∀ m' ∈ a.rows, m'.entry.target rules = m.entry.target rules → m'.isOwn = false
  smallest : ∀ m' ∈ a.rows, m'.entry.target rules = m.entry.target rules → m'.isOwn = m.isOwn →
    Text.bytes m.path ≤ Text.bytes m'.path

theorem Prevails.chosen (h : Prevails rules a m) : Chosen rules a m where
  mem := h.1
  own := by
    cases hown : m.isOwn with
    | true => exact .inl rfl
    | false =>
      right
      intro m' hm' htarget
      rcases h.2 m' hm' htarget with rfl | ⟨hfirst, -⟩ | ⟨hsame, -⟩
      · exact hown
      · rw [hown] at hfirst
        cases hfirst
      · rw [← hsame, hown]
  smallest := by
    intro m' hm' htarget hown
    rw [Text.bytes_le_bytes_iff]
    rcases h.2 m' hm' htarget with rfl | ⟨hfirst, hsecond⟩ | ⟨-, hlt⟩
    · exact String.le_refl _
    · rw [hfirst, hsecond] at hown
      cases hown
    · exact String.not_lt.1 fun hlt' => String.lt_irrefl _ (String.lt_trans hlt hlt')

theorem Chosen.prevails (h : Chosen rules a m) : Prevails rules a m := by
  refine ⟨h.mem, fun m' hm' htarget => ?_⟩
  by_cases hpath : m'.path = m.path
  · exact .inl (a.eq_of_key_eq hm' h.mem hpath)
  right
  by_cases hown : m'.isOwn = m.isOwn
  · have hle := Text.bytes_le_bytes_iff.1 (h.smallest m' hm' htarget hown)
    refine .inr ⟨hown.symm, ?_⟩
    by_contra hnot
    exact hpath (String.le_antisymm (String.not_lt.1 hnot) hle)
  · -- one of the two is the project's own, and it is not the other one
    rcases h.own with hfirst | hnone
    · rw [hfirst, Bool.not_eq_true] at hown
      exact .inl ⟨hfirst, hown⟩
    · have hself := hnone m h.mem rfl
      rw [hself, hnone m' hm' htarget] at hown
      exact absurd rfl hown

/-- The entry that relocation looks at first is the one that is to be kept. -/
theorem prevails_iff_chosen : Prevails rules a m ↔ Chosen rules a m :=
  ⟨Prevails.chosen, Chosen.prevails⟩

instance (rules : List RelocationRule) (a : Archive) (m : MergedEntry) :
    Decidable (Chosen rules a m) :=
  decidable_of_iff _ prevails_iff_chosen

/-- The entry that prevails stays, with its origin. -/
theorem exists_get?_of_prevails (h : Prevails rules a m) :
    ∃ kept, (relocate rules a).1.get? (m.entry.target rules) = some kept ∧
      kept.origin = m.origin ∧ kept.entry.DescendsFrom rules m.entry := by
  by_cases hrules : rules = []
  · subst hrules
    refine ⟨m, ?_, rfl, m.entry.descendsFrom_refl⟩
    exact Table.get?_eq_some_iff.2 ⟨h.1, (ArchiveEntry.target_nil m.entry).symm⟩
  · exact ⟨m.relocate rules, get?_relocate_of_prevails hrules h, rfl,
      m.entry.descendsFrom_relocate rules⟩

/-- What stays at a path is the entry that prevails there. -/
theorem exists_prevails_of_get? (h : (relocate rules a).1.get? path = some kept) :
    ∃ m, Prevails rules a m ∧ m.entry.target rules = path ∧
      kept.origin = m.origin ∧ kept.entry.DescendsFrom rules m.entry := by
  have hcontains : (relocate rules a).1.contains path = true := by
    rw [Table.contains_eq_isSome_get?, h, Option.isSome_some]
  obtain ⟨m, hm, rfl⟩ := contains_relocate_iff.1 hcontains
  obtain ⟨winner, hwinner, htarget⟩ := exists_prevails rules hm
  obtain ⟨kept', hkept', horigin, hdescends⟩ := exists_get?_of_prevails hwinner
  rw [htarget, h, Option.some_inj] at hkept'
  subst hkept'
  exact ⟨winner, hwinner, htarget, horigin, hdescends⟩

/-! ## The number of entries that moved -/

/-- The archive that some entries make when they are placed one after the other, and the number of
them that stayed and moved. -/
def placed (rules : List RelocationRule) (ms : List MergedEntry) : Archive × Nat :=
  ms.foldl (fun state m => place state m.path (m.relocate rules)) (Table.empty MergedEntry.path, 0)

theorem relocate_eq_placed (hrules : rules ≠ []) (a : Archive) :
    relocate rules a = placed rules (ownFirst a) := by
  have hnot : ¬ rules.isEmpty = true := by simpa using hrules
  rw [relocate, if_neg hnot, List.partition_eq_filter_filter]
  rfl

theorem placed_concat (ms : List MergedEntry) (m : MergedEntry) :
    placed rules (ms ++ [m]) = place (placed rules ms) m.path (m.relocate rules) := by
  rw [placed, List.foldl_append]
  rfl

/-- A path is taken if one of the placed entries came to it. -/
theorem contains_placed_iff {ms : List MergedEntry} :
    (placed rules ms).1.contains path = true ↔ ∃ m ∈ ms, m.entry.target rules = path := by
  have hfold : (placed rules ms).1 =
      (ms.map (MergedEntry.relocate rules)).foldl Table.insertNew (Table.empty MergedEntry.path) :=
    fst_foldl_place rules ms _
  rw [Table.contains_eq_isSome_get?, hfold, Table.get?_foldl_insertNew, Table.get?_empty,
    Option.none_or, List.find?_isSome]
  simp

/-- An entry prevails if none that comes to its path is placed before it. -/
theorem prevails_iff_of_ownFirst {before behind : List MergedEntry}
    (h : ownFirst a = before ++ m :: behind) :
    Prevails rules a m ↔ ∀ m' ∈ before, m'.entry.target rules ≠ m.entry.target rules := by
  constructor
  · intro hprevails m' hm' htarget
    have hordered := pairwise_ownFirst a
    rw [h, List.pairwise_append] at hordered
    have hprecedes : Precedes m' m := hordered.2.2 m' hm' m (List.mem_cons_self ..)
    have hmem : m' ∈ a.rows := by
      rw [← mem_ownFirst_iff, h]
      exact List.mem_append_left _ hm'
    rcases hprevails.2 m' hmem htarget with rfl | hafter
    · exact hprecedes.asymm hprecedes
    · exact hprecedes.asymm hafter
  · intro hbefore
    have hfound : (ownFirst a).find? (fun m' => m'.entry.target rules = m.entry.target rules) =
        some m := by
      refine List.find?_eq_some_iff_append.2 ⟨decide_eq_true rfl, before, behind, h, ?_⟩
      intro m' hm'
      simpa using hbefore m' hm'
    exact (prevails_of_find? hfound).1

/-- Does the entry stay, at another path than before? -/
def Moved (rules : List RelocationRule) (a : Archive) (m : MergedEntry) : Prop :=
  Chosen rules a m ∧ m.entry.target rules ≠ m.path

instance (rules : List RelocationRule) (a : Archive) (m : MergedEntry) :
    Decidable (Moved rules a m) :=
  inferInstanceAs (Decidable (_ ∧ _))

/-- An entry is counted when it is placed if it stays and has moved. -/
theorem snd_place_of_ownFirst {before behind : List MergedEntry}
    (h : ownFirst a = before ++ m :: behind) :
    (place (placed rules before) m.path (m.relocate rules)).2 =
      (placed rules before).2 + if Moved rules a m then 1 else 0 := by
  have htaken : (placed rules before).1.contains (m.relocate rules).path = true ↔
      ¬ Chosen rules a m := by
    rw [contains_placed_iff, MergedEntry.path_relocate, ← prevails_iff_chosen,
      prevails_iff_of_ownFirst h]
    simp only [ne_eq, not_forall, not_not, exists_prop]
  rw [place]
  by_cases hchosen : Chosen rules a m
  · rw [if_neg (fun hcontains => htaken.1 hcontains hchosen), MergedEntry.path_relocate]
    by_cases hpath : m.entry.target rules = m.path
    · rw [if_pos hpath, if_neg (fun hmoved : Moved rules a m => hmoved.2 hpath), Nat.add_zero]
    · rw [if_neg hpath, if_pos ⟨hchosen, hpath⟩]
  · rw [if_pos (htaken.2 hchosen), if_neg (fun hmoved : Moved rules a m => hchosen hmoved.1),
      Nat.add_zero]

/-- The number of entries counted so far is that of the placed ones which stay and have moved.  The
induction is on the entries placed so far, the last of them apart. -/
theorem snd_placed {before behind : List MergedEntry} (h : ownFirst a = before ++ behind) :
    (placed rules before).2 = before.countP (Moved rules a ·) := by
  induction before using List.reverseRecOn generalizing behind with
  | nil => rfl
  | append_singleton before m ih =>
    rw [List.append_assoc, List.singleton_append] at h
    rw [placed_concat, snd_place_of_ownFirst h, ih h, List.countP_append, List.countP_singleton]
    simp only [decide_eq_true_eq]

/-- If no entry comes to another path, none has moved. -/
theorem countP_moved_of_target_eq (h : ∀ m ∈ a.rows, m.entry.target rules = m.path) :
    a.rows.countP (Moved rules a ·) = 0 := by
  rw [List.countP_eq_zero]
  intro m hm hmoved
  rw [decide_eq_true_eq] at hmoved
  exact hmoved.2 (h m hm)

/-- The number that relocation gives is that of the entries which stay and have moved. -/
theorem snd_relocate (rules : List RelocationRule) (a : Archive) :
    (relocate rules a).2 = a.rows.countP (Moved rules a ·) := by
  by_cases hrules : rules = []
  · subst hrules
    exact (countP_moved_of_target_eq fun m _ => ArchiveEntry.target_nil m.entry).symm
  · have hperm : (ownFirst a).Perm a.rows := List.filter_append_perm MergedEntry.isOwn a.rows
    rw [relocate_eq_placed hrules, snd_placed (List.append_nil _).symm, hperm.countP_eq]

/-- The project's own entries of an archive. -/
def ownRows (a : Archive) : List MergedEntry := a.rows.filter MergedEntry.isOwn

theorem mem_ownRows_iff : m ∈ ownRows a ↔ m ∈ a.rows ∧ m.isOwn = true := List.mem_filter

/-- The paths that the project's own entries come to. -/
def ownTargets (rules : List RelocationRule) (a : Archive) : List String :=
  (ownRows a).map (·.entry.target rules)

/-- To the path of an entry of the project only another one of the project comes before it. -/
theorem isOwn_of_prevails {winner : MergedEntry} (h : Prevails rules a winner) (hm : m ∈ ownRows a)
    (htarget : m.entry.target rules = winner.entry.target rules) : winner.isOwn = true := by
  obtain ⟨hrow, hown⟩ := mem_ownRows_iff.1 hm
  rcases h.chosen.own with hwinner | hnone
  · exact hwinner
  · rw [hnone m hrow htarget] at hown
    cases hown

/-- The project's own entries after relocation lie where those before it come to. -/
theorem contains_own_relocate_iff :
    ((relocate rules a).1.filter MergedEntry.isOwn).contains path = true ↔
      path ∈ ownTargets rules a := by
  rw [Table.contains_iff, ownTargets, List.mem_map]
  constructor
  · rintro ⟨kept, hkept, rfl⟩
    obtain ⟨hrow, hown⟩ := mem_ownRows_iff.1 hkept
    obtain ⟨m, hm, horigin, hdescends⟩ := exists_of_mem_relocate hrow
    rw [MergedEntry.isOwn, horigin] at hown
    exact ⟨m, mem_ownRows_iff.2 ⟨hm, hown⟩, hdescends.path.symm⟩
  · rintro ⟨m, hm, rfl⟩
    obtain ⟨winner, hwinner, htarget⟩ := exists_prevails rules (mem_ownRows_iff.1 hm).1
    obtain ⟨kept, hkept, horigin, -⟩ := exists_get?_of_prevails hwinner
    have hown := isOwn_of_prevails hwinner hm htarget.symm
    obtain ⟨hrow, hpath⟩ := Table.get?_eq_some_iff.1 hkept
    refine ⟨kept, mem_ownRows_iff.2 ⟨hrow, ?_⟩, hpath.trans htarget⟩
    rwa [MergedEntry.isOwn, horigin]

/-- As many of the project's own entries are left as there are paths that they come to. -/
theorem length_ownRows_relocate (rules : List RelocationRule) (a : Archive) :
    (ownRows (relocate rules a).1).length = (ownTargets rules a).dedup.length := by
  have hsize : ((relocate rules a).1.filter MergedEntry.isOwn).size =
      (ownTargets rules a).dedup.length := by
    refine Table.size_eq_length (List.nodup_dedup _) fun path => ?_
    rw [contains_own_relocate_iff, List.mem_dedup]
  exact hsize

/-- Relocation keeps the project's own entries if as many of them are left and one descends from
each. -/
def KeepsOwn (rules : List RelocationRule) (a : Archive) : Prop :=
  (ownRows (relocate rules a).1).length = (ownRows a).length ∧
    ∀ m ∈ ownRows a, ∃ kept ∈ ownRows (relocate rules a).1,
      kept.entry.DescendsFrom rules m.entry

/-- An entry of the project stays if no other one of the project comes to its path. -/
theorem exists_kept_of_nodup (h : (ownTargets rules a).Nodup)
    (hm : m ∈ ownRows a) :
    ∃ kept ∈ ownRows (relocate rules a).1, kept.entry.DescendsFrom rules m.entry := by
  obtain ⟨hrow, hown⟩ := mem_ownRows_iff.1 hm
  obtain ⟨winner, hwinner, htarget⟩ := exists_prevails rules hrow
  have hmem : winner ∈ ownRows a :=
    mem_ownRows_iff.2 ⟨hwinner.1, isOwn_of_prevails hwinner hm htarget.symm⟩
  obtain rfl : winner = m := List.inj_on_of_nodup_map h hmem hm htarget
  obtain ⟨kept, hkept, horigin, hdescends⟩ := exists_get?_of_prevails hwinner
  refine ⟨kept, mem_ownRows_iff.2 ⟨(Table.get?_eq_some_iff.1 hkept).1, ?_⟩, hdescends⟩
  rwa [MergedEntry.isOwn, horigin]

/-- **The project's own entries under relocation.**  As many of them are left as there are paths
that they come to, so they all stay exactly if no two of them come to one path. -/
theorem keepsOwn_iff (rules : List RelocationRule) (a : Archive) :
    (ownRows (relocate rules a).1).length = (ownTargets rules a).dedup.length ∧
    (KeepsOwn rules a ↔ (ownTargets rules a).Nodup) := by
  have hleft := length_ownRows_relocate rules a
  have htargets : (ownTargets rules a).length = (ownRows a).length := List.length_map ..
  refine ⟨hleft, ?_, fun hnodup => ⟨?_, fun m hm => exists_kept_of_nodup hnodup hm⟩⟩
  · rintro ⟨hall, -⟩
    have hlength : (ownTargets rules a).dedup.length = (ownTargets rules a).length := by
      rw [← hleft, hall, htargets]
    have hsame : (ownTargets rules a).dedup = ownTargets rules a :=
      (List.dedup_sublist _).eq_of_length hlength
    rw [← hsame]
    exact List.nodup_dedup _
  · rw [hleft, hnodup.dedup, htargets]

/-- An entry of the project that does not move gives way to one that does: the rule is valid, and
both entries are the project's own. -/
theorem not_keepsOwn_of_taken_path :
    let rules : List RelocationRule := [⟨"org.yaml", "shaded"⟩]
    let a := Table.ofList MergedEntry.path
      [⟨{ path := "org/yaml/Foo.class", contents := "copy".toUTF8 }, .project⟩,
        ⟨{ path := "shaded/Foo.class", contents := "own".toUTF8 }, .project⟩]
    (∀ rule ∈ rules, rule.invalidSide? = none) ∧ ¬ KeepsOwn rules a := by
  refine ⟨by decide +kernel, fun h => ?_⟩
  exact absurd h.1 (by decide +kernel)

end Archive

end Vendoring
