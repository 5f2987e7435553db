import Vendoring.Archive.Relocate
import Vendoring.Proofs.Archive.Paths
import Vendoring.Proofs.Table

/-!
# What a relocated archive holds

A rule covers a name if its pattern is the front of the name, up to where a part of the name ends
(`move?_eq_some_iff`).  Relocation puts one entry after the other at its new path, the project's own
first, and an entry stays only if its new path is free.  So the paths of the new archive are those
that entries come to (`contains_relocate_iff`), and every entry of it descends from an old one
(`DescendsFrom`, `exists_of_mem_relocate`).
-/

namespace Vendoring

namespace RelocationRule

/-- A rule covers a name if its pattern is all of the name or ends where a part of it ends. -/
theorem move?_eq_some_iff {rule : RelocationRule} {separator : Char} {name moved : String} :
    rule.move? separator name = some moved ↔
      ∃ rest, name = respell '.' separator rule.pattern ++ rest ∧
        moved = respell '.' separator rule.destination ++ rest ∧
        (rest = "" ∨ rest.toList.head? = some separator) := by
  rw [move?]
  cases h : ArchiveEntry.after? (respell '.' separator rule.pattern) name with
  | none =>
    constructor
    · simp
    · rintro ⟨rest, hname, -, -⟩
      rw [ArchiveEntry.after?_eq_some_iff.2 hname] at h
      cases h
  | some rest =>
    have hname := ArchiveEntry.after?_eq_some_iff.1 h
    have hrest : ∀ rest', name = respell '.' separator rule.pattern ++ rest' → rest' = rest := by
      intro rest' hname'
      rwa [hname', String.append_right_inj] at hname
    cases hcs : rest.toList with
    | nil =>
      have hempty : rest = "" := String.toList_injective (by rw [hcs]; rfl)
      constructor
      · intro hmoved
        exact ⟨"", by rwa [hempty] at hname, by simpa [hcs] using hmoved.symm, .inl rfl⟩
      · rintro ⟨rest', hname', rfl, -⟩
        simp [hrest rest' hname', hempty]
    | cons c cs =>
      constructor
      · intro hmoved
        by_cases hc : c = separator
        · refine ⟨rest, hname, ?_, .inr (by rw [hcs, hc]; rfl)⟩
          simpa [hcs, hc] using hmoved.symm
        · simp [hcs, hc] at hmoved
      · rintro ⟨rest', hname', rfl, hhead⟩
        obtain rfl := hrest rest' hname'
        rcases hhead with rfl | hhead
        · simp at hcs
        · rw [hcs, List.head?_cons, Option.some.injEq] at hhead
          simp [hcs, hhead]

end RelocationRule

/-- Without rules every name stays as it is. -/
@[simp] theorem relocated_nil (separator : Char) (name : String) :
    relocated [] separator name = name := rfl

variable {rules : List RelocationRule} {separator : Char}

/-- A name that no rule covers stays. -/
theorem relocated_eq_self {name : String} (h : relocated? rules separator name = none) :
    relocated rules separator name = name := by
  rw [relocated, h, Option.getD_none]

/-- Names that no rule covers stay. -/
theorem map_relocated_eq_self {names : List String}
    (h : ∀ name ∈ names, relocated? rules separator name = none) :
    names.map (relocated rules separator) = names := by
  conv_rhs => rw [← List.map_id names]
  exact List.map_congr_left fun name hname => relocated_eq_self (h name hname)

namespace ArchiveEntry

@[simp] theorem path_relocate (rules : List RelocationRule) (e : ArchiveEntry) :
    (e.relocate rules).path = e.target rules := by
  rw [relocate]
  split <;> rfl

@[simp] theorem references_relocate (rules : List RelocationRule) (e : ArchiveEntry) :
    (e.relocate rules).references = e.references.map (relocated rules '/') := by
  rw [relocate]
  split <;> rfl

/-- Service descriptors lie in the directory for what describes the archive. -/
theorem after?_metaDirectory_service (service : String) :
    after? metaDirectory (servicesDirectory ++ service) = some ("services/" ++ service) := by
  rw [after?_eq_some_iff, ← String.append_assoc]
  rfl

/-- The path of a service descriptor is the name of the service in the directory of services. -/
theorem path_of_serviceName? {e : ArchiveEntry} {service : String}
    (h : e.serviceName? = some service) : e.path = servicesDirectory ++ service := by
  rw [serviceName?, Option.filter_eq_some_iff] at h
  exact after?_eq_some_iff.1 h.1

/-- An entry that does not lie in the directory for what describes the archive describes no
service. -/
theorem serviceName?_of_outside {e : ArchiveEntry}
    (hmeta : after? metaDirectory e.path = none) : e.serviceName? = none := by
  rw [Option.eq_none_iff_forall_ne_some]
  intro service hservice
  rw [path_of_serviceName? hservice, after?_metaDirectory_service] at hmeta
  cases hmeta

/-- An entry that does not lie there comes to the path that the rules give it. -/
theorem target_of_outside {e : ArchiveEntry}
    (hmeta : after? metaDirectory e.path = none) :
    e.target rules = relocated rules '/' e.path := by
  rw [target, serviceName?_of_outside hmeta, hmeta]
  rfl

/-- Without rules every entry stays where it is. -/
@[simp] theorem target_nil (e : ArchiveEntry) : e.target [] = e.path := by
  rw [target]
  cases h : e.serviceName? with
  | some service => simp [path_of_serviceName? h]
  | none => simp

/-- Is an entry what rules make of another one?  The lines of a service descriptor may have changed
besides. -/
structure DescendsFrom (rules : List RelocationRule) (e' e : ArchiveEntry) : Prop where
  path : e'.path = e.target rules
  references : e'.references = e.references.map (relocated rules '/')
  contents : e.serviceName? = none → e'.contents = e.contents

theorem descendsFrom_refl (e : ArchiveEntry) : e.DescendsFrom [] e where
  path := (target_nil e).symm
  references := (map_relocated_eq_self fun _ _ => rfl).symm
  contents _ := rfl

theorem descendsFrom_relocate (rules : List RelocationRule) (e : ArchiveEntry) :
    (e.relocate rules).DescendsFrom rules e where
  path := path_relocate rules e
  references := references_relocate rules e
  contents h := by simp [relocate, h]

end ArchiveEntry

namespace MergedEntry

/-- An entry of an archive as relocation puts it into the new one. -/
def relocate (rules : List RelocationRule) (m : MergedEntry) : MergedEntry :=
  { m with entry := m.entry.relocate rules }

@[simp] theorem path_relocate (rules : List RelocationRule) (m : MergedEntry) :
    (m.relocate rules).path = m.entry.target rules :=
  ArchiveEntry.path_relocate rules m.entry

end MergedEntry

namespace Archive

variable {a : Archive}

/-- The entries in the order in which relocation looks at them. -/
def ownFirst (a : Archive) : List MergedEntry :=
  a.rows.filter MergedEntry.isOwn ++ a.rows.filter (!·.isOwn)

theorem mem_ownFirst_iff {m : MergedEntry} : m ∈ ownFirst a ↔ m ∈ a.rows := by
  rw [ownFirst, List.mem_append, List.mem_filter, List.mem_filter]
  cases m.isOwn <;> simp

/-- Placing an entry is putting it at its path if this is free. -/
theorem fst_place (state : Archive × Nat) (old : String) (m : MergedEntry) :
    (place state old m).1 = state.1.insertNew m := by
  obtain ⟨t, moved⟩ := state
  by_cases h : t.contains m.path = true <;> simp [place, Table.insertNew, h]

variable (rules) in
/-- Placing entries is putting them at their new paths where these are free. -/
theorem fst_foldl_place (ms : List MergedEntry) (state : Archive × Nat) :
    (ms.foldl (fun state m => place state m.path { m with entry := m.entry.relocate rules })
        state).1 =
      (ms.map (MergedEntry.relocate rules)).foldl Table.insertNew state.1 := by
  induction ms generalizing state with
  | nil => rfl
  | cons m ms ih =>
    rw [List.foldl_cons, ih, List.map_cons, List.foldl_cons, fst_place]
    rfl

/-- At each path relocation keeps the first of the entries that come to it. -/
theorem get?_relocate (h : rules ≠ []) (k : String) :
    (relocate rules a).1.get? k =
      ((ownFirst a).map (MergedEntry.relocate rules)).find? (·.path = k) := by
  have hrules : ¬ rules.isEmpty = true := by simpa using h
  rw [relocate, if_neg hrules, List.partition_eq_filter_filter]
  have hplace := fst_foldl_place rules (ownFirst a) (Table.empty MergedEntry.path, 0)
  rw [ownFirst] at hplace ⊢
  simp only [Function.comp_def] at hplace ⊢
  rw [hplace, Table.get?_foldl_insertNew, Table.get?_empty, Option.none_or]

/-- The paths after relocation are those that the entries come to. -/
theorem contains_relocate_iff {k : String} :
    (relocate rules a).1.contains k = true ↔ ∃ m ∈ a.rows, m.entry.target rules = k := by
  by_cases h : rules = []
  · subst h
    simp [relocate, Table.contains_iff, MergedEntry.path]
  · rw [Table.contains_eq_isSome_get?, get?_relocate h, List.find?_isSome]
    simp [mem_ownFirst_iff]

/-- Every entry after relocation descends from one before it, whose origin it has. -/
theorem exists_of_mem_relocate {m' : MergedEntry} (h : m' ∈ (relocate rules a).1.rows) :
    ∃ m ∈ a.rows, m'.origin = m.origin ∧ m'.entry.DescendsFrom rules m.entry := by
  by_cases hrules : rules = []
  · subst hrules
    exact ⟨m', h, rfl, m'.entry.descendsFrom_refl⟩
  · have hget : (relocate rules a).1.get? m'.path = some m' := Table.get?_eq_some_iff.2 ⟨h, rfl⟩
    rw [get?_relocate hrules] at hget
    obtain ⟨m, hm, rfl⟩ := List.mem_map.1 (List.mem_of_find?_eq_some hget)
    exact ⟨m, mem_ownFirst_iff.1 hm, rfl, m.entry.descendsFrom_relocate rules⟩

end Archive

end Vendoring
