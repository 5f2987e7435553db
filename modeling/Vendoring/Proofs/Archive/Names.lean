import Vendoring.Proofs.Archive.Providers

/-!
# Relocation by the parts of names

Names of classes have slashes between their parts, names of services and providers have dots, and
the names of a rule have dots whatever they are applied to.  A rule is applied to the characters of
a name, but what it does is told by the parts alone: it covers a name if the parts of its pattern
are the first parts of the name, and puts the parts of its destination in their place
(`move?_eq_some_iff_nameParts`).  So it makes no difference for relocation with which separator a
name is spelled (`respell_relocated?`).

* `relocated_by_parts`: what a list of rules does to the parts of a name.
-/

namespace Vendoring

/-! ## Parts -/

/-- The parts of a name between its separators. -/
def nameParts (separator : Char) (name : String) : List (List Char) :=
  name.toList.splitOn separator

/-- The parts that a text adds to a name in front of it, where it begins with a separator. -/
def partsBehind (separator : Char) (rest : String) : List (List Char) :=
  match rest.toList with
  | [] => []
  | _ :: behind => behind.splitOn separator

variable {separator : Char} {name name' front rest : String} {more : List (List Char)}

/-- A name is known by its parts. -/
theorem nameParts_inj : nameParts separator name = nameParts separator name' ↔ name = name' :=
  Text.splitOn_inj.trans String.toList_inj

theorem nameParts_append (h : rest = "" ∨ rest.toList.head? = some separator) :
    nameParts separator (front ++ rest) =
      nameParts separator front ++ partsBehind separator rest := by
  rw [nameParts, String.toList_append, nameParts, partsBehind, Text.splitOn_eq_append_iff]
  rcases h with rfl | hhead
  · exact .inl ⟨List.append_nil _, rfl⟩
  · obtain ⟨behind, hbehind⟩ := List.head?_eq_some_iff.1 hhead
    rw [hbehind]
    exact .inr ⟨behind, rfl, rfl⟩

/-- A name whose first parts are those of another one begins with it. -/
theorem exists_of_nameParts_eq_append
    (h : nameParts separator name = nameParts separator front ++ more) :
    ∃ rest, name = front ++ rest ∧ more = partsBehind separator rest ∧
      (rest = "" ∨ rest.toList.head? = some separator) := by
  rcases Text.splitOn_eq_append_iff.1 h with ⟨hname, hmore⟩ | ⟨behind, hname, hmore⟩
  · refine ⟨"", ?_, hmore, .inl rfl⟩
    rw [String.append_empty]
    exact String.toList_injective hname
  · refine ⟨String.ofList (separator :: behind), String.toList_injective ?_, ?_, .inr ?_⟩
    · rw [hname, String.toList_append, String.toList_ofList]
    · rw [hmore, partsBehind, String.toList_ofList]
    · rw [String.toList_ofList, List.head?_cons]

/-- A name has the same parts when it is spelled with another separator that it does not have
already. -/
theorem nameParts_respell {old new : Char} (h : new = old ∨ new ∉ name.toList) :
    nameParts new (respell old new name) = nameParts old name := by
  rcases h with rfl | hnew
  · rw [respell_self]
  · rw [nameParts, respell, String.toList_ofList, Text.splitOn_map_ite hnew, nameParts]

/-! ## Rules -/

namespace RelocationRule

variable {rule : RelocationRule} {moved : String}

/-- Does the name lie in what the rule moves? -/
def Covers (rule : RelocationRule) (separator : Char) (name : String) : Prop :=
  nameParts '.' rule.pattern <+: nameParts separator name

instance (rule : RelocationRule) (separator : Char) (name : String) :
    Decidable (rule.Covers separator name) :=
  inferInstanceAs (Decidable (_ <+: _))

theorem nameParts_respell_packageName {s : String} (h : isPackageName s = true)
    (hseparator : separator = '.' ∨ separator = '/') :
    nameParts separator (respell '.' separator s) = nameParts '.' s := by
  refine nameParts_respell ?_
  rcases hseparator with rfl | rfl
  · exact .inl rfl
  · exact .inr (ne_empty_of_isPackageName h).2

/-- A rule that covers a name moves it, and the parts behind the pattern stay. -/
theorem exists_move?_of_nameParts (hvalid : rule.invalidSide? = none)
    (hseparator : separator = '.' ∨ separator = '/')
    (h : nameParts separator name = nameParts '.' rule.pattern ++ more) :
    ∃ moved, rule.move? separator name = some moved ∧
      nameParts separator moved = nameParts '.' rule.destination ++ more := by
  obtain ⟨hpattern, hdestination⟩ := invalidSide?_eq_none_iff.1 hvalid
  rw [← nameParts_respell_packageName hpattern hseparator] at h
  obtain ⟨rest, hname, hmore, hrest⟩ := exists_of_nameParts_eq_append h
  refine ⟨respell '.' separator rule.destination ++ rest, ?_, ?_⟩
  · exact move?_eq_some_iff.2 ⟨rest, hname, rfl, hrest⟩
  · rw [nameParts_append hrest, nameParts_respell_packageName hdestination hseparator, hmore]

/-- **A rule moves a name by its parts**: those of the destination take the place of those of the
pattern. -/
theorem move?_eq_some_iff_nameParts (hvalid : rule.invalidSide? = none)
    (hseparator : separator = '.' ∨ separator = '/') :
    rule.move? separator name = some moved ↔
      ∃ more, nameParts separator name = nameParts '.' rule.pattern ++ more ∧
        nameParts separator moved = nameParts '.' rule.destination ++ more := by
  constructor
  · intro hmove
    obtain ⟨hpattern, hdestination⟩ := invalidSide?_eq_none_iff.1 hvalid
    obtain ⟨rest, rfl, rfl, hrest⟩ := move?_eq_some_iff.1 hmove
    refine ⟨partsBehind separator rest, ?_, ?_⟩
    · rw [nameParts_append hrest, nameParts_respell_packageName hpattern hseparator]
    · rw [nameParts_append hrest, nameParts_respell_packageName hdestination hseparator]
  · rintro ⟨more, hname, hparts⟩
    obtain ⟨moved', hmove, hparts'⟩ := exists_move?_of_nameParts hvalid hseparator hname
    rw [← hparts', nameParts_inj] at hparts
    rw [hparts, hmove]

theorem isSome_move?_iff (hvalid : rule.invalidSide? = none)
    (hseparator : separator = '.' ∨ separator = '/') :
    (rule.move? separator name).isSome = true ↔ rule.Covers separator name := by
  rw [Option.isSome_iff_exists]
  constructor
  · rintro ⟨moved, hmoved⟩
    obtain ⟨more, hname, -⟩ := (move?_eq_some_iff_nameParts hvalid hseparator).1 hmoved
    exact ⟨more, hname.symm⟩
  · rintro ⟨more, hname⟩
    obtain ⟨moved, hmoved, -⟩ := exists_move?_of_nameParts hvalid hseparator hname.symm
    exact ⟨moved, hmoved⟩

/-- A rule that does not cover a name leaves it alone. -/
theorem move?_eq_none_iff (hvalid : rule.invalidSide? = none)
    (hseparator : separator = '.' ∨ separator = '/') :
    rule.move? separator name = none ↔ ¬ rule.Covers separator name := by
  rw [← isSome_move?_iff hvalid hseparator, Option.not_isSome_iff_eq_none]

/-- A name without slashes has none after a move. -/
theorem slash_notMem_of_move? (hvalid : rule.invalidSide? = none) (hslash : '/' ∉ name.toList)
    (h : rule.move? '.' name = some moved) : '/' ∉ moved.toList := by
  obtain ⟨rest, rfl, rfl, -⟩ := move?_eq_some_iff.1 h
  rw [String.toList_append, List.mem_append, not_or] at hslash ⊢
  rw [respell_self]
  exact ⟨(ne_empty_of_isPackageName (invalidSide?_eq_none_iff.1 hvalid).2).2, hslash.2⟩

/-- A rule moves a name alike, whether it is spelled with dots or with slashes. -/
theorem respell_move? (hvalid : rule.invalidSide? = none) (hslash : '/' ∉ name.toList) :
    (rule.move? '.' name).map (respell '.' '/') = rule.move? '/' (respell '.' '/' name) := by
  have hparts : nameParts '/' (respell '.' '/' name) = nameParts '.' name :=
    nameParts_respell (.inr hslash)
  cases hmove : rule.move? '.' name with
  | none =>
    rw [move?_eq_none_iff hvalid (.inl rfl), Covers, ← hparts] at hmove
    exact ((move?_eq_none_iff hvalid (.inr rfl)).2 hmove).symm
  | some moved =>
    obtain ⟨more, hname, hmoved⟩ := (move?_eq_some_iff_nameParts hvalid (.inl rfl)).1 hmove
    have hrespelled : nameParts '/' (respell '.' '/' moved) = nameParts '.' moved :=
      nameParts_respell (.inr (slash_notMem_of_move? hvalid hslash hmove))
    rw [← hparts] at hname
    rw [← hrespelled] at hmoved
    exact ((move?_eq_some_iff_nameParts hvalid (.inr rfl)).2 ⟨more, hname, hmoved⟩).symm

end RelocationRule

/-! ## Lists of rules -/

variable {rules : List RelocationRule}

/-- Some rule moves a name if some rule covers it. -/
theorem isSome_relocated?_iff (hrules : ∀ rule ∈ rules, rule.invalidSide? = none)
    (hseparator : separator = '.' ∨ separator = '/') :
    (relocated? rules separator name).isSome = true ↔
      ∃ rule ∈ rules, rule.Covers separator name := by
  rw [relocated?, List.findSome?_isSome_iff]
  constructor
  · rintro ⟨rule, hrule, hmove⟩
    exact ⟨rule, hrule, (RelocationRule.isSome_move?_iff (hrules rule hrule) hseparator).1 hmove⟩
  · rintro ⟨rule, hrule, hcovers⟩
    exact ⟨rule, hrule, (RelocationRule.isSome_move?_iff (hrules rule hrule) hseparator).2 hcovers⟩

/-- A name is moved by the first rule that covers it. -/
theorem relocated?_eq_bind (hrules : ∀ rule ∈ rules, rule.invalidSide? = none)
    (hseparator : separator = '.' ∨ separator = '/') (name : String) :
    relocated? rules separator name =
      (rules.find? (·.Covers separator name)).bind (·.move? separator name) := by
  rw [relocated?]
  induction rules with
  | nil => rfl
  | cons rule rules ih =>
    have hvalid := hrules rule (List.mem_cons_self ..)
    have hothers := ih fun other hother => hrules other (List.mem_cons_of_mem _ hother)
    rw [List.findSome?_cons, List.find?_cons]
    by_cases hcovers : rule.Covers separator name
    · obtain ⟨moved, hmove⟩ :=
        Option.isSome_iff_exists.1 ((RelocationRule.isSome_move?_iff hvalid hseparator).2 hcovers)
      simp only [hmove, hcovers, decide_true, Option.bind_some]
    · have hmove := (RelocationRule.move?_eq_none_iff hvalid hseparator).2 hcovers
      simp only [hmove, hcovers, decide_false]
      exact hothers

/-- Rules move a name alike, whether it is spelled with dots or with slashes. -/
theorem respell_relocated? (hrules : ∀ rule ∈ rules, rule.invalidSide? = none)
    (hslash : '/' ∉ name.toList) :
    (relocated? rules '.' name).map (respell '.' '/') =
      relocated? rules '/' (respell '.' '/' name) := by
  rw [relocated?, relocated?]
  induction rules with
  | nil => rfl
  | cons rule rules ih =>
    have hrule := RelocationRule.respell_move? (hrules rule (List.mem_cons_self ..)) hslash
    have hothers := ih fun other hother => hrules other (List.mem_cons_of_mem _ hother)
    rw [List.findSome?_cons, List.findSome?_cons, ← hrule]
    cases rule.move? '.' name with
    | none => exact hothers
    | some moved => rfl

/-- **Relocation by the parts of a name.**  A name is moved if some rule covers it, and then the
first such rule puts the parts of its destination in the place of those of its pattern.  For a name
without slashes it makes no difference whether it is spelled with slashes before or after it is
moved. -/
theorem relocated_by_parts (hrules : ∀ rule ∈ rules, rule.invalidSide? = none) (name : String) :
    (∀ separator, separator = '.' ∨ separator = '/' →
      ((relocated? rules separator name).isSome = true ↔
        ∃ rule ∈ rules, nameParts '.' rule.pattern <+: nameParts separator name) ∧
      ∀ before rule behind more, rules = before ++ rule :: behind →
        (∀ other ∈ before, ¬ nameParts '.' other.pattern <+: nameParts separator name) →
        nameParts separator name = nameParts '.' rule.pattern ++ more →
        ∃ moved, relocated? rules separator name = some moved ∧
          nameParts separator moved = nameParts '.' rule.destination ++ more) ∧
    ('/' ∉ name.toList →
      (relocated? rules '.' name).map (respell '.' '/') =
        relocated? rules '/' (respell '.' '/' name) ∧
      respell '.' '/' (relocated rules '.' name) = relocated rules '/' (respell '.' '/' name)) := by
  constructor
  · intro separator hseparator
    refine ⟨isSome_relocated?_iff hrules hseparator, ?_⟩
    rintro before rule behind more rfl hbefore hname
    have hrule := hrules rule (List.mem_append_right _ (List.mem_cons_self ..))
    obtain ⟨moved, hmove, hmoved⟩ :=
      RelocationRule.exists_move?_of_nameParts hrule hseparator hname
    refine ⟨moved, List.findSome?_eq_some_iff.2 ⟨before, rule, behind, rfl, hmove, ?_⟩, hmoved⟩
    intro other hother
    have hvalid := hrules other (List.mem_append_left _ hother)
    exact (RelocationRule.move?_eq_none_iff hvalid hseparator).2 (hbefore other hother)
  · intro hslash
    have hmoved := respell_relocated? hrules hslash
    refine ⟨hmoved, ?_⟩
    rw [relocated, relocated, ← hmoved]
    cases relocated? rules '.' name <;> rfl

/-- Rules of which the first moves a part of what the second moves. -/
def errorsApart : List RelocationRule :=
  [⟨"org.yaml.snakeyaml.error", "first"⟩, ⟨"org.yaml", "second"⟩]

/-- A class that only the second rule covers. -/
theorem relocated_by_parts_of_errorsApart :
    (∀ rule ∈ errorsApart, rule.invalidSide? = none) ∧
      '/' ∉ "org.yaml.snakeyaml.Yaml".toList ∧
      (∃ moved, relocated? errorsApart '.' "org.yaml.snakeyaml.Yaml" = some moved ∧
        nameParts '.' moved =
          ["second".toList, "snakeyaml".toList, "Yaml".toList]) ∧
      respell '.' '/' (relocated errorsApart '.' "org.yaml.snakeyaml.Yaml") =
        relocated errorsApart '/' "org/yaml/snakeyaml/Yaml" := by
  have hrules : ∀ rule ∈ errorsApart, rule.invalidSide? = none := by decide +kernel
  have hslash : '/' ∉ "org.yaml.snakeyaml.Yaml".toList := by decide +kernel
  have hspelled : respell '.' '/' "org.yaml.snakeyaml.Yaml" = "org/yaml/snakeyaml/Yaml" := by
    decide +kernel
  obtain ⟨hparts, halike⟩ := relocated_by_parts hrules "org.yaml.snakeyaml.Yaml"
  obtain ⟨moved, hmoved, hmore⟩ :=
    (hparts '.' (.inl rfl)).2 [⟨"org.yaml.snakeyaml.error", "first"⟩] ⟨"org.yaml", "second"⟩ []
      ["snakeyaml".toList, "Yaml".toList] rfl (by decide +kernel) (by decide +kernel)
  refine ⟨hrules, hslash, ⟨moved, hmoved, ?_⟩, ?_⟩
  · rw [hmore]
    decide +kernel
  · rw [(halike hslash).2, hspelled]

end Vendoring
