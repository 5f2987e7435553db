import Vendoring.Proofs.Archive.Lines

/-!
# Relocation and the providers of services

A service descriptor that moves takes its lines along, each of them moved as well.  Several entries
may come to the path of one descriptor, though, and then relocation keeps the one that it looks at
first: the project's own before those of dependencies, and of these the one with the smallest path
(`Prevails`).  The lines of the others are dropped with them, so a service keeps the providers that
the prevailing descriptor lists.

* `get?_relocate_of_prevails`: the entry that prevails is the one that stays.
* `descriptor_relocated`: which providers a service has after relocation.
* `not_keepsProviders_of_renamed_alike`: two services that become one, and a provider that is lost.
-/

namespace Vendoring

open ArchiveEntry (IsLine servicesDirectory)

/-! ## Names of services -/

namespace RelocationRule

variable {rule : RelocationRule}

/-- A package name is not empty and has no slash. -/
theorem ne_empty_of_isPackageName {s : String} (h : isPackageName s = true) :
    s ≠ "" ∧ '/' ∉ s.toList := by
  rw [isPackageName, List.all_eq_true] at h
  constructor
  · rintro rfl
    have := h [] (List.mem_singleton_self [])
    exact absurd this (by decide)
  · intro hslash
    obtain ⟨part, hpart, hmem⟩ := Text.exists_mem_splitOn hslash (show '/' ≠ '.' by decide)
    have := h part hpart
    simp [hmem] at this

/-- Both names of a valid rule are package names. -/
theorem invalidSide?_eq_none_iff :
    rule.invalidSide? = none ↔
      isPackageName rule.pattern = true ∧ isPackageName rule.destination = true := by
  rw [invalidSide?]
  cases isPackageName rule.pattern <;> cases isPackageName rule.destination <;> simp

end RelocationRule

namespace ArchiveEntry

variable {e : ArchiveEntry} {service : String} {rules : List RelocationRule}

/-- A service descriptor lies in the directory of services, and its name has no slash. -/
theorem serviceName?_eq_some_iff :
    e.serviceName? = some service ↔
      e.path = servicesDirectory ++ service ∧ service ≠ "" ∧ '/' ∉ service.toList := by
  rw [serviceName?, Option.filter_eq_some_iff, after?_eq_some_iff]
  simp

/-- Valid rules move the name of a service to the name of a service. -/
theorem serviceName?_relocated (hrules : ∀ rule ∈ rules, rule.invalidSide? = none)
    (h : e.serviceName? = some service) :
    relocated rules '.' service ≠ "" ∧ '/' ∉ (relocated rules '.' service).toList := by
  obtain ⟨-, hne, hslash⟩ := serviceName?_eq_some_iff.1 h
  rw [relocated]
  cases hmoved : relocated? rules '.' service with
  | none => exact ⟨hne, hslash⟩
  | some moved =>
    obtain ⟨rule, hrule, hmove⟩ := List.exists_of_findSome?_eq_some hmoved
    obtain ⟨rest, rfl, rfl, -⟩ := RelocationRule.move?_eq_some_iff.1 hmove
    have hname := RelocationRule.ne_empty_of_isPackageName
      (RelocationRule.invalidSide?_eq_none_iff.1 (hrules rule hrule)).2
    rw [String.toList_append, List.mem_append, not_or] at hslash
    rw [Option.getD_some, respell_self]
    constructor
    · intro hempty
      exact hname.1 (String.append_eq_empty_iff.1 hempty).1
    · rw [String.toList_append, List.mem_append, not_or]
      exact ⟨hname.2, hslash.2⟩

/-- The lines of an entry after relocation: a service descriptor has its lines moved. -/
def relocatedLines (rules : List RelocationRule) (e : ArchiveEntry) : List String :=
  if e.serviceName?.isSome then e.textLines.map (relocated rules '.') else e.textLines

theorem relocatedLines_nil (e : ArchiveEntry) : e.relocatedLines [] = e.textLines := by
  rw [relocatedLines, map_relocated_eq_self fun _ _ => rfl, ite_self]

/-- The moved lines of a descriptor are read back from its text exactly if they are lines. -/
theorem textLines_relocate_iff (h : e.serviceName?.isSome = true) :
    (e.relocate rules).textLines = e.textLines.map (relocated rules '.') ↔
      ∀ line ∈ e.textLines, IsLine (relocated rules '.' line).toList := by
  rw [relocate, if_pos h, textLines_withLines_iff, List.forall_mem_map]

/-- Lines that are moved to lines are read back from the text of the entry. -/
theorem textLines_relocate (hlines : ∀ rule ∈ rules, IsLine rule.destination.toList)
    (e : ArchiveEntry) : (e.relocate rules).textLines = e.relocatedLines rules := by
  rw [relocatedLines]
  by_cases h : e.serviceName?.isSome = true
  · rw [if_pos h, textLines_relocate_iff h]
    exact fun line hline => isLine_relocated (isLine_of_mem_textLines hline) hlines
  · rw [if_neg h, relocate, if_neg h]
    rfl

end ArchiveEntry

namespace Archive

variable {rules : List RelocationRule} {a : Archive} {m m' : MergedEntry}

/-! ## The entry that prevails -/

/-- Relocation looks at one entry before the other: at the project's own first, and otherwise at
that with the smaller path. -/
def Precedes (m m' : MergedEntry) : Prop :=
  m.isOwn = true ∧ m'.isOwn = false ∨ m.isOwn = m'.isOwn ∧ m.path < m'.path

instance (m m' : MergedEntry) : Decidable (Precedes m m') :=
  inferInstanceAs (Decidable (_ ∨ _))

theorem Precedes.asymm (h : Precedes m m') : ¬ Precedes m' m := by
  rcases h with ⟨hm, hm'⟩ | ⟨hown, hlt⟩
  · rintro (⟨h, -⟩ | ⟨h, -⟩)
    · rw [hm'] at h
      cases h
    · rw [hm, hm'] at h
      cases h
  · rintro (⟨h, h'⟩ | ⟨-, hlt'⟩)
    · rw [hown, h] at h'
      cases h'
    · exact String.lt_irrefl _ (String.lt_trans hlt hlt')

/-- Relocation looks at the entries one after the other. -/
theorem pairwise_ownFirst (a : Archive) : (ownFirst a).Pairwise Precedes := by
  rw [ownFirst, List.pairwise_append]
  refine ⟨?_, ?_, fun m hm m' hm' => ?_⟩
  · refine (a.sorted.filter MergedEntry.isOwn).imp_of_mem fun {m m'} hm hm' hlt => ?_
    exact .inr ⟨(List.mem_filter.1 hm).2.trans (List.mem_filter.1 hm').2.symm, hlt⟩
  · refine (a.sorted.filter (!·.isOwn)).imp_of_mem fun {m m'} hm hm' hlt => ?_
    have hown := (List.mem_filter.1 hm).2.trans (List.mem_filter.1 hm').2.symm
    exact .inr ⟨Bool.not_inj hown, hlt⟩
  · exact .inl ⟨(List.mem_filter.1 hm).2, Bool.not_eq_true' _ ▸ (List.mem_filter.1 hm').2⟩

/-- The first of the entries that come to the path of `m` is `m` itself. -/
def Prevails (rules : List RelocationRule) (a : Archive) (m : MergedEntry) : Prop :=
  m ∈ a.rows ∧
    ∀ m' ∈ a.rows, m'.entry.target rules = m.entry.target rules → m' = m ∨ Precedes m m'

instance (rules : List RelocationRule) (a : Archive) (m : MergedEntry) :
    Decidable (Prevails rules a m) :=
  inferInstanceAs (Decidable (_ ∧ _))

/-- Only one of the entries that come to a path prevails. -/
theorem eq_of_prevails (h : Prevails rules a m) (h' : Prevails rules a m')
    (htarget : m.entry.target rules = m'.entry.target rules) : m = m' := by
  rcases h.2 m' h'.1 htarget.symm with heq | hprecedes
  · exact heq.symm
  rcases h'.2 m h.1 htarget with heq | hprecedes'
  · exact heq
  · exact absurd hprecedes' hprecedes.asymm

/-- What relocation finds first among the entries that come to a path prevails there. -/
theorem prevails_of_find? {k : String}
    (h : (ownFirst a).find? (fun m => m.entry.target rules = k) = some m) :
    Prevails rules a m ∧ m.entry.target rules = k := by
  obtain ⟨hcomes, before, behind, hsplit, hbefore⟩ := List.find?_eq_some_iff_append.1 h
  have htarget : m.entry.target rules = k := of_decide_eq_true hcomes
  refine ⟨⟨mem_ownFirst_iff.1 (List.mem_of_find?_eq_some h), fun m' hm' htarget' => ?_⟩, htarget⟩
  have hordered := pairwise_ownFirst a
  rw [← mem_ownFirst_iff, hsplit, List.mem_append, List.mem_cons] at hm'
  rw [hsplit, List.pairwise_append, List.pairwise_cons] at hordered
  rcases hm' with hm' | rfl | hm'
  · have hother := hbefore m' hm'
    rw [decide_eq_true (htarget'.trans htarget)] at hother
    cases hother
  · exact .inl rfl
  · exact .inr (hordered.2.1.1 m' hm')

variable (rules) in
theorem exists_find?_target (hm : m ∈ a.rows) :
    ∃ winner, (ownFirst a).find? (fun m' => m'.entry.target rules = m.entry.target rules) =
      some winner := by
  rw [← Option.isSome_iff_exists, List.find?_isSome]
  exact ⟨m, mem_ownFirst_iff.2 hm, decide_eq_true rfl⟩

variable (rules) in
/-- One of the entries that come to a path prevails. -/
theorem exists_prevails (hm : m ∈ a.rows) :
    ∃ winner, Prevails rules a winner ∧ winner.entry.target rules = m.entry.target rules := by
  obtain ⟨winner, hwinner⟩ := exists_find?_target rules hm
  exact ⟨winner, prevails_of_find? hwinner⟩

/-- At each path relocation keeps the first of the entries that come to it, relocated. -/
theorem get?_relocate_eq_map (hrules : rules ≠ []) (k : String) :
    (relocate rules a).1.get? k =
      ((ownFirst a).find? (fun m => m.entry.target rules = k)).map (MergedEntry.relocate rules) := by
  have hpath : ((fun m : MergedEntry => decide (m.path = k)) ∘ MergedEntry.relocate rules) =
      fun m => decide (m.entry.target rules = k) := by
    funext m
    rw [Function.comp_apply, MergedEntry.path_relocate]
  rw [get?_relocate hrules, List.find?_map, hpath]

/-- **The entry that prevails is the one that stays.** -/
theorem get?_relocate_of_prevails (hrules : rules ≠ []) (h : Prevails rules a m) :
    (relocate rules a).1.get? (m.entry.target rules) = some (m.relocate rules) := by
  obtain ⟨winner, hwinner⟩ := exists_find?_target rules h.1
  have hprevails := prevails_of_find? hwinner
  rw [eq_of_prevails hprevails.1 h hprevails.2] at hwinner
  rw [get?_relocate_eq_map hrules, hwinner, Option.map_some]

/-- The entries after relocation are those that prevail, relocated. -/
theorem mem_relocate_iff (hrules : rules ≠ []) :
    m' ∈ (relocate rules a).1.rows ↔ ∃ m, Prevails rules a m ∧ m' = m.relocate rules := by
  constructor
  · intro hm'
    have hget : (relocate rules a).1.get? m'.path = some m' := Table.get?_eq_some_iff.2 ⟨hm', rfl⟩
    rw [get?_relocate_eq_map hrules, Option.map_eq_some_iff] at hget
    obtain ⟨m, hfound, rfl⟩ := hget
    exact ⟨m, (prevails_of_find? hfound).1, rfl⟩
  · rintro ⟨m, hprevails, rfl⟩
    exact (Table.get?_eq_some_iff.1 (get?_relocate_of_prevails hrules hprevails)).1

/-! ## Providers -/

/-- If no entry moves, every entry prevails at its own path. -/
theorem prevails_iff_of_target_eq (h : ∀ m ∈ a.rows, m.entry.target rules = m.path) :
    Prevails rules a m ↔ m ∈ a.rows := by
  refine ⟨fun hm => hm.1, fun hm => ⟨hm, fun m' hm' htarget => .inl ?_⟩⟩
  rw [h m hm, h m' hm'] at htarget
  exact a.eq_of_key_eq hm' hm htarget

/-- The entry that prevails stays, at its new path, with its origin and its lines as they moved. -/
theorem exists_of_prevails (hlines : ∀ rule ∈ rules, IsLine rule.destination.toList)
    (h : Prevails rules a m) :
    ∃ m' ∈ (relocate rules a).1.rows, m'.path = m.entry.target rules ∧ m'.origin = m.origin ∧
      m'.entry.textLines = m.entry.relocatedLines rules := by
  by_cases hrules : rules = []
  · subst hrules
    exact ⟨m, h.1, (ArchiveEntry.target_nil m.entry).symm, rfl,
      (ArchiveEntry.relocatedLines_nil m.entry).symm⟩
  · have hstays := Table.get?_eq_some_iff.1 (get?_relocate_of_prevails hrules h)
    exact ⟨m.relocate rules, hstays.1, hstays.2, rfl,
      ArchiveEntry.textLines_relocate hlines m.entry⟩

/-- Relocation keeps the providers of an archive if for every service descriptor there is one of
the service after relocation, which lists the providers after relocation. -/
def KeepsProviders (rules : List RelocationRule) (a : Archive) : Prop :=
  ∀ m ∈ a.rows, ∀ service ∈ m.entry.serviceName?, ∃ m' ∈ (relocate rules a).1.rows,
    m'.entry.serviceName? = some (relocated rules '.' service) ∧
    ∀ provider ∈ m.entry.textLines, relocated rules '.' provider ∈ m'.entry.textLines

instance (rules : List RelocationRule) (a : Archive) : Decidable (KeepsProviders rules a) :=
  inferInstanceAs (Decidable (∀ m ∈ _, ∀ service ∈ _, ∃ m' ∈ _, _ ∧ _))

/-- **Relocation and providers.**  For every service descriptor there is a descriptor of the service
after relocation.  It is the one that prevails there and lists what this one lists, with its
providers moved; so a descriptor that prevails loses no provider. -/
theorem descriptor_relocated {service : String}
    (hrules : ∀ rule ∈ rules, rule.invalidSide? = none)
    (hlines : ∀ rule ∈ rules, IsLine rule.destination.toList)
    (hm : m ∈ a.rows) (hservice : m.entry.serviceName? = some service) :
    ∃ winner, Prevails rules a winner ∧ winner.entry.target rules = m.entry.target rules ∧
      ∃ m' ∈ (relocate rules a).1.rows,
        m'.entry.serviceName? = some (relocated rules '.' service) ∧
        m'.origin = winner.origin ∧
        m'.entry.textLines = winner.entry.relocatedLines rules ∧
        (Prevails rules a m → ∀ provider ∈ m.entry.textLines,
          relocated rules '.' provider ∈ m'.entry.textLines) := by
  have htarget : m.entry.target rules = servicesDirectory ++ relocated rules '.' service := by
    rw [ArchiveEntry.target, hservice]
  obtain ⟨winner, hwinner, hsame⟩ := exists_prevails rules hm
  obtain ⟨m', hm', hpath, horigin, htext⟩ := exists_of_prevails hlines hwinner
  refine ⟨winner, hwinner, hsame, m', hm', ?_, horigin, htext, fun hprevails provider hmem => ?_⟩
  · rw [ArchiveEntry.serviceName?_eq_some_iff]
    exact ⟨hpath.trans (hsame.trans htarget),
      ArchiveEntry.serviceName?_relocated hrules hservice⟩
  · rw [htext, eq_of_prevails hwinner hprevails hsame, ArchiveEntry.relocatedLines, hservice]
    exact List.mem_map_of_mem hmem

/-- The descriptors of two services, both of a dependency. -/
def twoServices : Archive :=
  Table.ofList MergedEntry.path
    [⟨{ path := "META-INF/services/a.S", contents := "a.P\n".toUTF8 },
        .dependency ⟨"org.lib", "lib", none⟩⟩,
      ⟨{ path := "META-INF/services/b.S", contents := "b.Q\n".toUTF8 },
        .dependency ⟨"org.lib", "lib", none⟩⟩]

/-- Rules that give two services the same name. -/
def renamedAlike : List RelocationRule := [⟨"a", "s"⟩, ⟨"b", "s"⟩]

/-- The descriptor that is looked at first keeps its provider. -/
theorem descriptor_relocated_of_renamed_alike :
    ∃ m ∈ twoServices.rows, m.entry.serviceName? = some "a.S" ∧
      "a.P" ∈ m.entry.textLines ∧
      ∃ m' ∈ (relocate renamedAlike twoServices).1.rows,
        m'.entry.serviceName? = some (relocated renamedAlike '.' "a.S") ∧
        relocated renamedAlike '.' "a.P" ∈ m'.entry.textLines := by
  have hrules : ∀ rule ∈ renamedAlike, rule.invalidSide? = none := by decide +kernel
  have hlines : ∀ rule ∈ renamedAlike, IsLine rule.destination.toList := by decide +kernel
  obtain ⟨m, hm, hservice, hprovider, hprevails⟩ :
      ∃ m ∈ twoServices.rows, m.entry.serviceName? = some "a.S" ∧ "a.P" ∈ m.entry.textLines ∧
        Prevails renamedAlike twoServices m := by decide +kernel
  obtain ⟨-, -, -, m', hm', hservice', -, -, hkept⟩ :=
    descriptor_relocated hrules hlines hm hservice
  exact ⟨m, hm, hservice, hprovider, m', hm', hservice', hkept hprevails "a.P" hprovider⟩

/-- The descriptor that is looked at second loses its provider, although the rules are valid. -/
theorem not_keepsProviders_of_renamed_alike :
    (∀ rule ∈ renamedAlike, rule.invalidSide? = none) ∧
      ¬ KeepsProviders renamedAlike twoServices := by
  decide +kernel

end Archive

end Vendoring
