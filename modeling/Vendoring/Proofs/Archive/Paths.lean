import Mathlib.Data.List.Basic
import Vendoring.Archive.Basic

/-!
# What the path of an entry tells

The name of a class and the name of a service are read off the path of an entry.  The lemmas of
this file turn the reading around: the path is the name together with its fixed part.
-/

namespace Vendoring

namespace ArchiveEntry

/-! ## Fixed parts of a text -/

/-- What follows a fixed front completes it to the whole text. -/
theorem after?_eq_some_iff {front s rest : String} :
    after? front s = some rest ↔ s = front ++ rest := by
  rw [after?, Option.map_eq_some_iff]
  constructor
  · rintro ⟨cs, h, rfl⟩
    rw [List.isPrefixOf?_eq_some_iff_append_eq] at h
    exact String.toList_injective (by rw [String.toList_append, String.toList_ofList, h])
  · rintro rfl
    refine ⟨rest.toList, ?_, String.ofList_toList⟩
    rw [List.isPrefixOf?_eq_some_iff_append_eq, String.toList_append]

/-- What comes before a fixed end completes it to the whole text. -/
theorem before?_eq_some_iff {back s rest : String} :
    before? back s = some rest ↔ s = rest ++ back := by
  rw [before?, Option.map_eq_some_iff]
  constructor
  · rintro ⟨cs, h, rfl⟩
    rw [List.isPrefixOf?_eq_some_iff_append_eq] at h
    have hs : s.toList = cs.reverse ++ back.toList := by
      rw [← List.reverse_inj, ← h, List.reverse_append, List.reverse_reverse]
    exact String.toList_injective (by rw [hs, String.toList_append, String.toList_ofList])
  · rintro rfl
    refine ⟨rest.toList.reverse, ?_, ?_⟩
    · rw [List.isPrefixOf?_eq_some_iff_append_eq, String.toList_append, List.reverse_append]
    · rw [List.reverse_reverse, String.ofList_toList]

/-! ## Classes -/

/-- The class of a name is the entry at the name with the end of class files. -/
theorem className?_eq_some_iff {e : ArchiveEntry} {name : String} :
    e.className? = some name ↔ e.path = name ++ classEnd :=
  before?_eq_some_iff

end ArchiveEntry

namespace Archive

/-- The entry at the path of a class is the class. -/
theorem get?_class_iff {a : Archive} {name : String} {m : MergedEntry} :
    a.get? (name ++ ArchiveEntry.classEnd) = some m ↔
      m ∈ a.rows ∧ m.entry.className? = some name := by
  rw [Table.get?_eq_some_iff, ArchiveEntry.className?_eq_some_iff]
  rfl

/-- An archive holds at most one class of a name. -/
theorem eq_of_className? {a : Archive} {name : String} {m m' : MergedEntry} (hm : m ∈ a.rows)
    (hm' : m' ∈ a.rows) (h : m.entry.className? = some name)
    (h' : m'.entry.className? = some name) : m = m' := by
  rw [ArchiveEntry.className?_eq_some_iff] at h h'
  exact a.eq_of_key_eq hm hm' (h.trans h'.symm)

end Archive

end Vendoring
