import Vendoring.Proofs.Archive.Collisions

/-!
# Relocation and the links between classes

An entry refers to a class by its name, and the class lies at the name with the end of class files.
Relocation moves both, the reference and the path, by the same rules.  A rule that covers a package
moves them alike, since what follows the package begins with a slash in either of them
(`move?_class_iff`).  A rule that names the class itself moves the reference alone, because on the
path the end of class files follows and not a slash.  So links are kept as long as no rule names a
class.

* `relocated_class`: path and reference move alike if no rule names the class.
* `keepsLinks_iff`: which lists of rules keep the links of all archives.
* `not_keepsLinks_of_named_class`: a rule that breaks a link.
-/

namespace Vendoring

open ArchiveEntry (classEnd metaDirectory after?)

namespace RelocationRule

/-- Is the pattern of the rule the given name, and not a package that the name belongs to? -/
def Names (rule : RelocationRule) (name : String) : Prop := respell '.' '/' rule.pattern = name

/-- A name spelled with slashes has no dot. -/
theorem dot_notMem_respell (name : String) : '.' ∉ (respell '.' '/' name).toList := by
  rw [respell, String.toList_ofList, List.mem_map]
  rintro ⟨c, -, hc⟩
  by_cases h : c = '.'
  · rw [if_pos h] at hc
    exact absurd hc (by decide)
  · rw [if_neg h] at hc
    exact h hc

/-- A rule moves the path of a class like the name of the class, except that it does not move the
path if it names the class. -/
theorem move?_class_iff {rule : RelocationRule} {name moved : String} :
    rule.move? '/' (name ++ classEnd) = some moved ↔
      ¬ rule.Names name ∧ ∃ short, rule.move? '/' name = some short ∧ moved = short ++ classEnd := by
  rw [move?_eq_some_iff]
  constructor
  · rintro ⟨rest, hname, rfl, hrest⟩
    have hchars := congrArg String.toList hname
    rw [String.toList_append, String.toList_append, List.append_eq_append_iff] at hchars
    rcases hchars with ⟨cs, hpattern, hend⟩ | ⟨cs, hshort, hend⟩
    · -- the pattern would reach into the end of class files
      exfalso
      have hdot := dot_notMem_respell rule.pattern
      rw [hpattern, List.mem_append, not_or] at hdot
      rcases hrest with rfl | hhead
      · rw [String.toList_empty, List.append_nil] at hend
        exact hdot.2 (by rw [← hend]; decide)
      · have hslash : '/' ∈ classEnd.toList := by
          rw [hend]
          exact List.mem_append_right _ (List.mem_of_mem_head? hhead)
        exact absurd hslash (by decide)
    · have hcs : cs.head? = some '/' := by
        cases cs with
        | nil =>
          rw [List.nil_append] at hend
          rcases hrest with rfl | hhead
          · exact absurd hend (by decide)
          · rw [hend] at hhead
            exact absurd hhead (by decide)
        | cons c cs =>
          rcases hrest with rfl | hhead
          · simp at hend
          · rwa [hend] at hhead
      have hname' : name = respell '.' '/' rule.pattern ++ String.ofList cs :=
        String.toList_injective (by rw [hshort, String.toList_append, String.toList_ofList])
      refine ⟨?_, respell '.' '/' rule.destination ++ String.ofList cs, ?_, ?_⟩
      · intro hnames
        rw [Names] at hnames
        rw [← hnames] at hshort
        have : cs = [] := by simpa using hshort
        simp [this] at hcs
      · exact move?_eq_some_iff.2 ⟨_, hname', rfl, .inr (by rwa [String.toList_ofList])⟩
      · refine String.toList_injective ?_
        rw [String.toList_append, hend, String.toList_append, String.toList_append,
          String.toList_ofList, List.append_assoc]
  · rintro ⟨hnames, short, hmove, rfl⟩
    obtain ⟨rest, rfl, rfl, hrest⟩ := move?_eq_some_iff.1 hmove
    refine ⟨rest ++ classEnd, String.append_assoc, String.append_assoc, .inr ?_⟩
    rcases hrest with rfl | hhead
    · exact absurd (by rw [Names, String.append_empty]) hnames
    · rw [String.toList_append, List.head?_append, hhead, Option.some_or]

/-- A rule that does not name a class moves its path like its name. -/
theorem move?_class_of_not_names {rule : RelocationRule} {name : String} (h : ¬ rule.Names name) :
    rule.move? '/' (name ++ classEnd) = (rule.move? '/' name).map (· ++ classEnd) := by
  ext moved
  rw [move?_class_iff, Option.map_eq_some_iff]
  constructor
  · rintro ⟨-, short, hshort, rfl⟩
    exact ⟨short, hshort, rfl⟩
  · rintro ⟨short, hshort, rfl⟩
    exact ⟨h, short, hshort, rfl⟩

end RelocationRule

/-! ## Lists of rules -/

variable {rules : List RelocationRule} {a : Archive} {name : String}

/-- If no rule names a class, its path moves like its name. -/
theorem relocated?_class (h : ∀ rule ∈ rules, ¬ rule.Names name) :
    relocated? rules '/' (name ++ classEnd) = (relocated? rules '/' name).map (· ++ classEnd) := by
  rw [relocated?, relocated?]
  induction rules with
  | nil => rfl
  | cons rule rules ih =>
    have hrule := RelocationRule.move?_class_of_not_names (h rule (List.mem_cons_self ..))
    have hrules := ih fun rule hmem => h rule (List.mem_cons_of_mem _ hmem)
    rw [List.findSome?_cons, List.findSome?_cons, hrule]
    cases rule.move? '/' name with
    | some short => rfl
    | none => exact hrules

/-- If no rule names a class, its path after relocation is that of its new name. -/
theorem relocated_class (h : ∀ rule ∈ rules, ¬ rule.Names name) :
    relocated rules '/' (name ++ classEnd) = relocated rules '/' name ++ classEnd := by
  rw [relocated, relocated, relocated?_class h]
  cases relocated? rules '/' name <;> rfl

/-! ## Links of archives -/

namespace Archive

/-- Is there a class of the given name, outside the directory for what describes the archive? -/
def HasClass (a : Archive) (name : String) : Prop :=
  a.contains (name ++ classEnd) = true ∧ after? metaDirectory (name ++ classEnd) = none

/-- Relocation keeps the links of an archive if every entry that stays, with its references moved,
still refers to classes of the archive where it did before.  It is compared with the entry that was
chosen to stay at its path, and with no other one that comes there. -/
def KeepsLinks (rules : List RelocationRule) (a : Archive) : Prop :=
  ∀ m' ∈ (relocate rules a).1.rows, ∃ m ∈ a.rows, Chosen rules a m ∧
    m'.path = m.entry.target rules ∧ m'.origin = m.origin ∧
    m'.entry.references = m.entry.references.map (relocated rules '/') ∧
    ∀ name ∈ m.entry.references, a.HasClass name →
      (relocate rules a).1.contains (relocated rules '/' name ++ classEnd) = true

instance (a : Archive) (name : String) : Decidable (a.HasClass name) :=
  inferInstanceAs (Decidable (_ ∧ _))

instance (rules : List RelocationRule) (a : Archive) : Decidable (KeepsLinks rules a) :=
  inferInstanceAs (Decidable (∀ m' ∈ _, ∃ m ∈ _, _ ∧ _))

/-- A link whose path moves like its name is kept. -/
theorem contains_of_relocated_class (h : a.HasClass name)
    (hmove : relocated rules '/' (name ++ classEnd) = relocated rules '/' name ++ classEnd) :
    (relocate rules a).1.contains (relocated rules '/' name ++ classEnd) = true := by
  obtain ⟨hcontains, hmeta⟩ := h
  obtain ⟨m, hm, hpath⟩ := Table.contains_iff.1 hcontains
  change m.entry.path = name ++ classEnd at hpath
  rw [← hpath] at hmeta hmove
  rw [contains_relocate_iff]
  exact ⟨m, hm, by rw [ArchiveEntry.target_of_outside hmeta, hmove]⟩

/-- If the links of the entries that stay all move like the classes they lead to, they are kept. -/
theorem keepsLinks_of_relocated_class
    (h : ∀ m, Chosen rules a m → ∀ name ∈ m.entry.references, a.HasClass name →
      relocated rules '/' (name ++ classEnd) = relocated rules '/' name ++ classEnd) :
    KeepsLinks rules a := by
  intro m' hm'
  obtain ⟨m, hprevails, -, horigin, hdescends⟩ :=
    exists_prevails_of_get? (Table.get?_eq_some_iff.2 ⟨hm', rfl⟩)
  have hchosen := hprevails.chosen
  refine ⟨m, hchosen.mem, hchosen, hdescends.path, horigin, hdescends.references, ?_⟩
  exact fun name hname hclass =>
    contains_of_relocated_class hclass (h m hchosen name hname hclass)

/-- The archive of one class that refers to itself. -/
def selfLink (name : String) : Archive :=
  (Table.empty MergedEntry.path).insert
    ⟨{ path := name ++ classEnd, references := [name] }, .project⟩

/-- If the link of a class to itself is kept, its path moves like its name. -/
theorem relocated_class_of_keepsLinks (hmeta : after? metaDirectory (name ++ classEnd) = none)
    (h : KeepsLinks rules (selfLink name)) :
    relocated rules '/' (name ++ classEnd) = relocated rules '/' name ++ classEnd := by
  let e : ArchiveEntry := { path := name ++ classEnd, references := [name] }
  have hrows : (selfLink name).rows = [⟨e, .project⟩] := rfl
  have htarget : e.target rules = relocated rules '/' (name ++ classEnd) :=
    ArchiveEntry.target_of_outside hmeta
  have hclass : (selfLink name).HasClass name :=
    ⟨Table.contains_iff.2 ⟨⟨e, .project⟩, by simp [hrows], rfl⟩, hmeta⟩
  -- the class itself stays, for nothing else is there to take its place
  have hstays : (relocate rules (selfLink name)).1.contains (e.target rules) = true :=
    contains_relocate_iff.2 ⟨⟨e, .project⟩, by simp [hrows], rfl⟩
  obtain ⟨m', hm', -⟩ := Table.contains_iff.1 hstays
  obtain ⟨m, hm, -, -, -, -, hlinks⟩ := h m' hm'
  obtain rfl : m = ⟨e, .project⟩ := by simpa [hrows] using hm
  obtain ⟨m₂, hm₂, hpath⟩ :=
    contains_relocate_iff.1 (hlinks name (List.mem_singleton_self name) hclass)
  obtain rfl : m₂ = ⟨e, .project⟩ := by simpa [hrows] using hm₂
  rw [← htarget]
  exact hpath

/-- **Relocation and links.**  An archive keeps its links if no rule names a class that an entry
which stays refers to.  For a list of rules to keep the links of every archive, it has to move the
path of each class that one of its rules names like the name. -/
theorem keepsLinks_iff (rules : List RelocationRule) :
    (∀ a : Archive,
      (∀ m, Chosen rules a m → ∀ name ∈ m.entry.references, a.HasClass name →
        ∀ rule ∈ rules, ¬ rule.Names name) → KeepsLinks rules a) ∧
    ((∀ a : Archive, KeepsLinks rules a) ↔
      ∀ rule ∈ rules, ∀ name, rule.Names name →
        after? metaDirectory (name ++ classEnd) = none →
        relocated rules '/' (name ++ classEnd) = relocated rules '/' name ++ classEnd) := by
  refine ⟨fun a h => ?_, fun h rule _ name _ hmeta => ?_, fun h a => ?_⟩
  · exact keepsLinks_of_relocated_class fun m hm name hname hclass =>
      relocated_class (h m hm name hname hclass)
  · exact relocated_class_of_keepsLinks hmeta (h (selfLink name))
  · refine keepsLinks_of_relocated_class fun m _ name _ hclass => ?_
    by_cases hnames : ∃ rule ∈ rules, rule.Names name
    · obtain ⟨rule, hrule, hnames⟩ := hnames
      exact h rule hrule name hnames hclass.2
    · exact relocated_class fun rule hrule hrule' => hnames ⟨rule, hrule, hrule'⟩

/-- A rule that names a class takes the references to the class away from it: here both names of
the rule are package names, and the class of the project is left with a reference to nothing. -/
theorem not_keepsLinks_of_named_class :
    let rules : List RelocationRule := [⟨"lib.Parser", "shaded.Parser"⟩]
    let a := Table.ofList MergedEntry.path
      [⟨{ path := "lib/Parser.class" }, .dependency ⟨"org.lib", "lib", none⟩⟩,
        ⟨{ path := "app/Main.class", references := ["lib/Parser"] }, .project⟩]
    (∀ rule ∈ rules, rule.invalidSide? = none) ∧ ¬ KeepsLinks rules a := by
  decide +kernel

end Archive

end Vendoring
