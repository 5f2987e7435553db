import Mathlib.Algebra.BigOperators.Group.Finset.Basic
import Mathlib.Algebra.GroupWithZero.Nat
import Vendoring.Proofs.Configuration.Registered

/-!
# What an import does

An import registers the placements of a document, which are the coordinates of its dependencies with
the configurations that their scopes correspond to, and skips the rest (`imported_importInto`).  So
what a container lists after an import depends on the document as a set of placements:

* `importInto_eq_self`: a document whose placements are all listed changes nothing;
* `perm_dependencies_registerEach`: the order of placements does not change what is listed.
-/

namespace Vendoring

namespace Container

variable {c d : Container}

/-! ## Registering placements -/

/-- Lists each coordinate under its name. -/
def registerEach (c : Container) (ps : List (ConfigurationName × Coordinate)) : Container :=
  ps.foldl (fun c p => c.register p.1 p.2) c

@[simp] theorem registerEach_concat (c : Container) (ps : List (ConfigurationName × Coordinate))
    (p : ConfigurationName × Coordinate) :
    c.registerEach (ps ++ [p]) = (c.registerEach ps).register p.1 p.2 := by
  simp [registerEach]

theorem registerEach_append (c : Container) (ps qs : List (ConfigurationName × Coordinate)) :
    c.registerEach (ps ++ qs) = (c.registerEach ps).registerEach qs :=
  List.foldl_append ..

theorem lists_iff {name : ConfigurationName} {k : Coordinate} :
    c.lists name k = true ↔ k ∈ c.dependencies name := by
  simp [lists]

/-- A configuration is found under its name. -/
theorem get?_of_mem {x : Configuration} (h : x ∈ c.configurations) : c.get? x.name = some x := by
  obtain ⟨y, hy⟩ : ∃ y, c.get? x.name = some y := by
    rw [← Option.isSome_iff_exists, get?, List.find?_isSome]
    exact ⟨x, h, by simp⟩
  have hsame : y = x :=
    List.inj_on_of_nodup_map c.distinct (List.mem_of_find?_eq_some hy) h (name_of_get? hy)
  rw [hy, hsame]

/-- What is under a name are the coordinates of the configuration of that name. -/
theorem dependencies_of_mem {x : Configuration} (h : x ∈ c.configurations) :
    c.dependencies x.name = x.dependencies := by
  rw [dependencies, get?_of_mem h]
  rfl

/-- A name under which something is listed has a configuration. -/
theorem mem_names_of_mem_dependencies {name : ConfigurationName} {k : Coordinate}
    (h : k ∈ c.dependencies name) : name ∈ c.names := by
  rw [← has_eq_true_iff, has_eq_isSome_get?]
  cases hget : c.get? name with
  | some x => rfl
  | none => simp [dependencies, hget] at h

/-- A coordinate that is listed already is registered without effect. -/
theorem register_eq_self {name : ConfigurationName} {k : Coordinate}
    (h : k ∈ c.dependencies name) : c.register name k = c := by
  have hcreate : c.create name = c := by
    rw [create, dif_pos (has_eq_true_iff.2 (mem_names_of_mem_dependencies h))]
  have hkept : ∀ x ∈ c.configurations, (if x.name = name then
      if x.dependencies.contains k then x
      else { x with dependencies := x.dependencies ++ [k] } else x) = x := by
    intro x hx
    by_cases hname : x.name = name
    · subst hname
      rw [dependencies_of_mem hx] at h
      rw [if_pos rfl, if_pos (List.contains_iff_mem.2 h)]
    · rw [if_neg hname]
  refine Container.ext ?_ ?_
  · rw [register, hcreate]
    exact (List.map_congr_left hkept).trans (List.map_id _)
  · rw [register, hcreate]
    rfl

/-- The coordinates that go with a name. -/
def coordinatesAt (name : ConfigurationName) (ps : List (ConfigurationName × Coordinate)) :
    List Coordinate :=
  ps.filterMap fun p => if p.1 = name then some p.2 else none

theorem mem_coordinatesAt_iff {name : ConfigurationName} {k : Coordinate}
    {ps : List (ConfigurationName × Coordinate)} :
    k ∈ coordinatesAt name ps ↔ (name, k) ∈ ps := by
  simp [coordinatesAt]

/-- Under each name the placements of that name are registered, and no others. -/
theorem dependencies_registerEach (c : Container) (ps : List (ConfigurationName × Coordinate))
    (name : ConfigurationName) :
    (c.registerEach ps).dependencies name =
      (c.registerAll name (coordinatesAt name ps)).dependencies name := by
  induction ps generalizing c with
  | nil => rfl
  | cons p ps ih =>
    have hfirst : c.registerEach (p :: ps) = (c.register p.1 p.2).registerEach ps := rfl
    rw [hfirst, ih]
    by_cases hp : p.1 = name
    · have hplaced : coordinatesAt name (p :: ps) = p.2 :: coordinatesAt name ps := by
        simp [coordinatesAt, hp]
      rw [hplaced, hp]
      rfl
    · have hplaced : coordinatesAt name (p :: ps) = coordinatesAt name ps := by
        simp [coordinatesAt, hp]
      rw [hplaced, dependencies_registerAll, dependencies_registerAll, dependencies_register,
        if_neg fun h => hp h.1.symm]

theorem mem_dependencies_registerEach_iff {ps : List (ConfigurationName × Coordinate)}
    {name : ConfigurationName} {k : Coordinate} :
    k ∈ (c.registerEach ps).dependencies name ↔ k ∈ c.dependencies name ∨ (name, k) ∈ ps := by
  rw [dependencies_registerEach, dependencies_registerAll, List.mem_append, List.mem_eraseDups,
    List.mem_filter, mem_coordinatesAt_iff]
  by_cases h : k ∈ c.dependencies name <;> simp [h]

/-- Placements that are all listed are registered without effect. -/
theorem registerEach_eq_self {ps : List (ConfigurationName × Coordinate)}
    (h : ∀ p ∈ ps, p.2 ∈ c.dependencies p.1) : c.registerEach ps = c := by
  induction ps with
  | nil => rfl
  | cons p ps ih =>
    have hfirst : c.registerEach (p :: ps) = (c.register p.1 p.2).registerEach ps := rfl
    rw [hfirst, register_eq_self (h p (List.mem_cons_self ..))]
    exact ih fun q hq => h q (List.mem_cons_of_mem _ hq)

/-- The same placements in another order, or with other repetitions, list the same coordinates. -/
theorem perm_dependencies_registerEach (c : Container)
    {ps qs : List (ConfigurationName × Coordinate)} (h : ∀ p, p ∈ ps ↔ p ∈ qs)
    (name : ConfigurationName) :
    ((c.registerEach ps).dependencies name).Perm ((c.registerEach qs).dependencies name) := by
  rw [dependencies_registerEach, dependencies_registerEach, dependencies_registerAll,
    dependencies_registerAll]
  refine List.Perm.append_left _ ?_
  rw [List.perm_ext_iff_of_nodup (nodup_eraseDups _) (nodup_eraseDups _)]
  intro k
  simp only [List.mem_eraseDups, List.mem_filter, mem_coordinatesAt_iff, h]

/-! ## Counting registrations -/

/-- The registrations of a container are counted name by name. -/
theorem registrationCount_eq_sum (c : Container) :
    c.registrationCount = (c.names.map fun name => (c.dependencies name).length).sum := by
  have hlengths : c.names.map (fun name => (c.dependencies name).length) =
      c.configurations.map fun x => x.dependencies.length := by
    rw [names, List.map_map]
    exact List.map_congr_left fun x hx => congrArg List.length (dependencies_of_mem hx)
  rw [hlengths, registrationCount, List.sum_eq_foldl, List.foldl_map]

/-- More names count nothing more, if those of the container are among them. -/
theorem registrationCount_eq_sum_of_subset {names : Finset ConfigurationName}
    (h : c.names.toFinset ⊆ names) :
    c.registrationCount = ∑ name ∈ names, (c.dependencies name).length := by
  have hdistinct : c.names.Nodup := c.distinct
  rw [registrationCount_eq_sum, ← List.sum_toFinset _ hdistinct]
  refine Finset.sum_subset h fun name _ hname => ?_
  rw [List.length_eq_zero_iff, List.eq_nil_iff_forall_not_mem]
  intro k hk
  exact hname (List.mem_toFinset.2 (mem_names_of_mem_dependencies hk))

/-- Containers that list equally many coordinates under each name have equally many
registrations. -/
theorem registrationCount_congr
    (h : ∀ name, (c.dependencies name).length = (d.dependencies name).length) :
    c.registrationCount = d.registrationCount := by
  have hleft : c.names.toFinset ⊆ c.names.toFinset ∪ d.names.toFinset := Finset.subset_union_left
  have hright : d.names.toFinset ⊆ c.names.toFinset ∪ d.names.toFinset := Finset.subset_union_right
  rw [registrationCount_eq_sum_of_subset hleft, registrationCount_eq_sum_of_subset hright]
  exact Finset.sum_congr rfl fun name _ => h name

end Container

/-! ## Imports -/

namespace Pom

/-- The registrations that some dependencies ask for, in their order. -/
def placements (ds : List Dependency) : List (ConfigurationName × Coordinate) :=
  ds.filterMap (·.target.toOption)

/-- The dependencies that cannot be registered, with the reasons. -/
def skips (ds : List Dependency) : List Skipped :=
  ds.filterMap fun d =>
    match d.target with
    | .error reason => some ⟨d.label, d.line, reason⟩
    | .ok _ => none

/-- What has come of the import of some dependencies into a container. -/
structure Imported (c : Container) (ds : List Dependency) (state : Container × ImportReport) :
    Prop where
  container : state.1 = c.registerEach (placements ds)
  registered : state.2.registered =
    ((placements ds).filter fun p => !c.lists p.1 p.2).eraseDups
  counted : state.2.registered.length + state.2.alreadyPresent = (placements ds).length
  skipped : state.2.skipped = skips ds

variable {c : Container} {ds : List Dependency} {state : Container × ImportReport}

theorem imported_concat (h : Imported c ds state) (d : Dependency) :
    Imported c (ds ++ [d]) (importOne state d) := by
  obtain ⟨current, report⟩ := state
  obtain ⟨hcontainer, hregistered, hcounted, hskipped⟩ := h
  simp only at hcontainer hregistered hcounted hskipped
  cases htarget : d.target with
  | error reason =>
    have hplacements : placements (ds ++ [d]) = placements ds := by
      simp [placements, htarget, Except.toOption]
    have hskips : skips (ds ++ [d]) = skips ds ++ [⟨d.label, d.line, reason⟩] := by
      simp [skips, htarget]
    simp only [importOne, htarget]
    constructor
    · rw [hplacements, hcontainer]
    · rw [hplacements, hregistered]
    · rw [hplacements, hcounted]
    · rw [hskips, hskipped]
  | ok p =>
    obtain ⟨name, k⟩ := p
    have hplacements : placements (ds ++ [d]) = placements ds ++ [(name, k)] := by
      simp [placements, htarget, Except.toOption]
    have hskips : skips (ds ++ [d]) = skips ds := by simp [skips, htarget]
    have hlists : current.lists name k = true ↔
        c.lists name k = true ∨ (name, k) ∈ placements ds := by
      rw [hcontainer, Container.lists_iff, Container.mem_dependencies_registerEach_iff,
        Container.lists_iff]
    simp only [importOne, htarget]
    have hnew : ((placements ds ++ [(name, k)]).filter fun p => !c.lists p.1 p.2).eraseDups =
        if current.lists name k then report.registered else report.registered ++ [(name, k)] := by
      rw [eraseDups_filter_concat, ← hregistered]
      by_cases hheld : c.lists name k = true <;>
        by_cases hplaced : (name, k) ∈ placements ds <;> simp [hlists, hheld, hplaced]
    by_cases hlisted : current.lists name k = true
    · rw [if_pos hlisted] at hnew ⊢
      constructor
      · rw [hplacements, Container.registerEach_concat, ← hcontainer,
          Container.register_eq_self (Container.lists_iff.1 hlisted)]
      · rw [hplacements, hnew]
      · simp only [hplacements, List.length_append, List.length_singleton, ← hcounted]
        omega
      · rw [hskips, hskipped]
    · rw [if_neg hlisted] at hnew ⊢
      constructor
      · rw [hplacements, Container.registerEach_concat, ← hcontainer]
      · rw [hplacements, hnew]
      · simp only [hplacements, List.length_append, List.length_singleton, ← hcounted]
        omega
      · rw [hskips, hskipped]

/-- **What an import does.**  It registers the placements of the document, reports those that are
new where they come first, counts the others and skips what has no placement. -/
theorem imported_importInto (doc : Document) (c : Container) :
    Imported c doc.dependencies (doc.importInto c) := by
  rw [Document.importInto]
  generalize doc.dependencies = ds
  induction ds using List.reverseRecOn with
  | nil => exact ⟨rfl, rfl, rfl, rfl⟩
  | append_singleton ds d ih =>
    rw [List.foldl_append]
    exact imported_concat ih d

/-- Every dependency is placed or skipped. -/
theorem length_placements_add_length_skips (ds : List Dependency) :
    (placements ds).length + (skips ds).length = ds.length := by
  induction ds with
  | nil => rfl
  | cons d ds ih =>
    cases htarget : d.target with
    | error reason =>
      simp [placements, skips, htarget, Except.toOption] at ih ⊢
      omega
    | ok p =>
      simp [placements, skips, htarget, Except.toOption] at ih ⊢
      omega

theorem container_importInto (doc : Document) (c : Container) :
    (doc.importInto c).1 = c.registerEach (placements doc.dependencies) :=
  (imported_importInto doc c).container

/-- A document whose placements are all listed changes nothing; its report says that they were
there. -/
theorem importInto_eq_self {doc : Document}
    (h : ∀ p ∈ placements doc.dependencies, p.2 ∈ c.dependencies p.1) :
    doc.importInto c =
      (c, { registered := []
            alreadyPresent := (placements doc.dependencies).length
            skipped := skips doc.dependencies }) := by
  obtain ⟨hcontainer, hregistered, hcounted, hskipped⟩ := imported_importInto doc c
  have hnone : (placements doc.dependencies).filter (fun p => !c.lists p.1 p.2) = [] := by
    rw [List.filter_eq_nil_iff]
    intro p hp
    simpa [Container.lists] using h p hp
  rw [Container.registerEach_eq_self h] at hcontainer
  rw [hnone, List.eraseDups_nil] at hregistered
  rw [hregistered, List.length_nil, Nat.zero_add] at hcounted
  generalize doc.importInto c = result at *
  obtain ⟨d, report⟩ := result
  obtain ⟨registered, alreadyPresent, skipped⟩ := report
  simp only at hcontainer hregistered hcounted hskipped
  rw [hcontainer, hregistered, hcounted, hskipped]

end Pom

end Vendoring
