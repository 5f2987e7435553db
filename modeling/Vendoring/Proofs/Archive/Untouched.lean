import Mathlib.Data.List.Forall2
import Vendoring.Proofs.Archive.Settled

/-!
# Relocation where no rule applies

Rules that cover no name in an archive leave it as it is, with one exception: they write the text of
every service descriptor anew, as its lines and nothing besides.  Without any rules not even this
happens.  So rules that do not apply differ from none exactly where a descriptor is not yet written
like this (`IsTidy`).

* `relocate_eq_tidied`: what rules that do not apply make of an archive.
* `relocate_of_nothing_covered`: what stays as it was, and when all of it does.
* `relocate_ne_of_commented`: a descriptor that loses a comment although no rule applies.
-/

namespace Vendoring

variable {rules : List RelocationRule}

/-! ## Tidy descriptors -/

namespace ArchiveEntry

/-- Is the text of the entry, if it describes a service, the one that its lines make? -/
def IsTidy (e : ArchiveEntry) : Prop :=
  e.serviceName?.isSome = true → e.contents = (joinLines e.textLines).toUTF8

/-- The entry with the text that its lines make, if it describes a service. -/
def tidied (e : ArchiveEntry) : ArchiveEntry :=
  if e.serviceName?.isSome then e.withLines e.textLines else e

/-- Is the entry the other one, but for what a descriptor has besides its lines? -/
structure SaysSame (e' e : ArchiveEntry) : Prop where
  path : e'.path = e.path
  references : e'.references = e.references
  textLines : e'.textLines = e.textLines
  contents : e.serviceName? = none → e'.contents = e.contents

variable {e : ArchiveEntry}

/-- What is not a descriptor is tidy as it is. -/
theorem tidied_of_serviceName?_eq_none (h : e.serviceName? = none) : e.tidied = e := by
  rw [tidied, h]
  rfl

@[simp] theorem path_tidied (e : ArchiveEntry) : e.tidied.path = e.path := by
  rw [tidied]
  split <;> rfl

@[simp] theorem references_tidied (e : ArchiveEntry) : e.tidied.references = e.references := by
  rw [tidied]
  split <;> rfl

/-- To tidy an entry leaves its lines as they are. -/
@[simp] theorem textLines_tidied (e : ArchiveEntry) : e.tidied.textLines = e.textLines := by
  rw [tidied]
  split
  · exact textLines_withLines e fun _ hline => isLine_of_mem_textLines hline
  · rfl

theorem saysSame_tidied (e : ArchiveEntry) : e.tidied.SaysSame e where
  path := path_tidied e
  references := references_tidied e
  textLines := textLines_tidied e
  contents h := by rw [tidied_of_serviceName?_eq_none h]

theorem isTidy_tidied (e : ArchiveEntry) : e.tidied.IsTidy := by
  intro hservice
  rw [serviceName?, path_tidied, ← serviceName?] at hservice
  rw [textLines_tidied, tidied, if_pos hservice, withLines]

/-- A tidy entry is one that is left alone by being tidied. -/
theorem tidied_eq_self_iff : e.tidied = e ↔ e.IsTidy := by
  constructor
  · intro h
    rw [← h]
    exact isTidy_tidied e
  · intro h
    rw [tidied]
    split
    · next hservice => rw [withLines, ← h hservice]
    · rfl

instance (e : ArchiveEntry) : Decidable e.IsTidy := decidable_of_iff _ tidied_eq_self_iff

theorem spared_iff : e.Spared rules ↔
    (after? metaDirectory e.path = none → relocated? rules '/' e.path = none) ∧
      (∀ name ∈ e.references, relocated? rules '/' name = none) ∧
      (∀ service ∈ e.serviceName?, relocated? rules '.' service = none) ∧
      (e.serviceName?.isSome = true → ∀ line ∈ e.textLines, relocated? rules '.' line = none) :=
  ⟨fun h => ⟨h.path, h.references, h.service, h.lines⟩, fun h => ⟨h.1, h.2.1, h.2.2.1, h.2.2.2⟩⟩

instance (rules : List RelocationRule) (e : ArchiveEntry) : Decidable (e.Spared rules) :=
  decidable_of_iff' _ spared_iff

end ArchiveEntry

/-- An entry of an archive with its text tidied. -/
def MergedEntry.tidied (m : MergedEntry) : MergedEntry := { m with entry := m.entry.tidied }

/-! ## Archives -/

namespace Archive

variable {a : Archive}

/-- Is no name in the archive covered by a rule? -/
def Spared (rules : List RelocationRule) (a : Archive) : Prop :=
  ∀ m ∈ a.rows, m.entry.Spared rules

instance (rules : List RelocationRule) (a : Archive) : Decidable (Spared rules a) :=
  inferInstanceAs (Decidable (∀ m ∈ _, _))

/-- The archive with all its descriptors tidied. -/
def tidied (a : Archive) : Archive where
  rows := a.rows.map MergedEntry.tidied
  sorted := by
    rw [List.pairwise_map]
    refine a.sorted.imp fun {m m'} hlt => ?_
    rwa [MergedEntry.path, MergedEntry.path, MergedEntry.tidied, MergedEntry.tidied,
      ArchiveEntry.path_tidied, ArchiveEntry.path_tidied]

/-- **Rules that cover no name tidy the descriptors and do nothing else.** -/
theorem relocate_eq_tidied (hrules : rules ≠ []) (h : Spared rules a) :
    relocate rules a = (a.tidied, 0) := by
  have htarget : ∀ m ∈ a.rows, m.entry.target rules = m.path := fun m hm =>
    ArchiveEntry.target_of_spared (h m hm)
  have hrows : (relocate rules a).1.rows = a.tidied.rows := by
    rw [rows_relocate_of_target_eq hrules htarget]
    refine List.map_congr_left fun m hm => ?_
    rw [MergedEntry.relocate, ArchiveEntry.relocate_of_spared (h m hm)]
    rfl
  exact Prod.ext (Table.ext hrows) (snd_relocate_of_target_eq htarget)

/-- An archive stays as it is when it is tidied exactly if all of it is tidy. -/
theorem tidied_eq_self_iff : a.tidied = a ↔ ∀ m ∈ a.rows, m.entry.IsTidy := by
  have hrows : a.tidied.rows = a.rows ↔ ∀ m ∈ a.rows, m.tidied = m := by
    conv_lhs => rhs; rw [← List.map_id a.rows]
    exact List.map_inj_left
  have hentry : ∀ m : MergedEntry, m.tidied = m ↔ m.entry.tidied = m.entry := by
    rintro ⟨e, origin⟩
    simp [MergedEntry.tidied]
  rw [← Table.ext_iff] at hrows
  simp only [hrows, hentry, ArchiveEntry.tidied_eq_self_iff]

/-- **Relocation where no rule applies.**  Nothing is counted as moved.  One by one the entries keep
their paths, references and origins, and also their bytes unless they are descriptors, of which they
keep the lines; with rules these are all that is left in a descriptor.  So the archive is what it is
without rules exactly if there are none or every descriptor is tidy. -/
theorem relocate_of_nothing_covered (h : Spared rules a) :
    (relocate rules a).2 = 0 ∧
    List.Forall₂ (fun kept m => kept.origin = m.origin ∧ kept.entry.SaysSame m.entry)
      (relocate rules a).1.rows a.rows ∧
    (rules ≠ [] → ∀ kept ∈ (relocate rules a).1.rows, kept.entry.IsTidy) ∧
    (relocate rules a = relocate [] a ↔ rules = [] ∨ ∀ m ∈ a.rows, m.entry.IsTidy) := by
  by_cases hrules : rules = []
  · subst hrules
    refine ⟨rfl, ?_, fun hne => absurd rfl hne, ⟨fun _ => .inl rfl, fun _ => rfl⟩⟩
    exact List.forall₂_same.2 fun m _ => ⟨rfl, rfl, rfl, rfl, fun _ => rfl⟩
  · have hnone : relocate [] a = (a, 0) := rfl
    rw [relocate_eq_tidied hrules h, hnone]
    refine ⟨rfl, ?_, fun _ kept hkept => ?_, ?_⟩
    · rw [tidied, List.forall₂_map_left_iff, List.forall₂_same]
      exact fun m _ => ⟨rfl, m.entry.saysSame_tidied⟩
    · obtain ⟨m, -, rfl⟩ := List.mem_map.1 hkept
      exact m.entry.isTidy_tidied
    · simp only [Prod.mk.injEq, and_true, tidied_eq_self_iff, hrules, false_or]

/-- A library whose only entry is a descriptor with a comment and without a last line end. -/
def commented : Archive :=
  Table.ofList MergedEntry.path
    [⟨{ path := "META-INF/services/org.lib.Codec", contents := "# codecs\norg.lib.Plain".toUTF8 },
      .dependency ⟨"org.lib", "lib", none⟩⟩]

/-- A rule for a package that the library does not have. -/
def elsewhere : List RelocationRule := [⟨"com.other", "shaded"⟩]

/-- The descriptor keeps its provider, and all that it has besides is gone. -/
theorem relocate_of_nothing_covered_of_elsewhere :
    Spared elsewhere commented ∧ (relocate elsewhere commented).2 = 0 ∧
      List.Forall₂ (fun kept m => kept.origin = m.origin ∧ kept.entry.SaysSame m.entry)
        (relocate elsewhere commented).1.rows commented.rows ∧
      (∀ kept ∈ (relocate elsewhere commented).1.rows, kept.entry.IsTidy) ∧
      ¬ ∀ m ∈ commented.rows, m.entry.IsTidy := by
  have hspared : Spared elsewhere commented := by decide +kernel
  obtain ⟨hcount, hsame, htidy, -⟩ := relocate_of_nothing_covered hspared
  exact ⟨hspared, hcount, hsame, htidy (by decide), by decide +kernel⟩

/-- The rule is valid and covers no name, and still it is not as if there were none. -/
theorem relocate_ne_of_commented :
    (∀ rule ∈ elsewhere, rule.invalidSide? = none) ∧ Spared elsewhere commented ∧
      relocate elsewhere commented ≠ relocate [] commented := by
  decide +kernel

end Archive

end Vendoring
