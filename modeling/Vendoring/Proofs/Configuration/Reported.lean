import Vendoring.Proofs.Configuration.Imports

/-!
# What an import changes and reports

A dependency of a POM is skipped, with a reason that its fields decide (`Dependency.skipped?`), or
it has a place, which is a configuration and a coordinate (`Dependency.place?`).  Reported are the
places that were new, and these tell what has become of the container: which configurations it has
got (`names_registerEach`), what they list, and which of them take part in locking
(`locked_registerEach`).

The main result is `importInto_reports`.
-/

namespace Vendoring

namespace Container

variable {c : Container}

/-! ## Configurations that registration adds -/

@[simp] theorem lockNew_create (c : Container) (name : ConfigurationName) :
    (c.create name).lockNew = c.lockNew := by
  unfold create
  split <;> rfl

@[simp] theorem lockNew_register (c : Container) (name : ConfigurationName) (k : Coordinate) :
    (c.register name k).lockNew = c.lockNew :=
  lockNew_create c name

theorem lockNew_registerEach (c : Container) (ps : List (ConfigurationName × Coordinate)) :
    (c.registerEach ps).lockNew = c.lockNew := by
  induction ps using List.reverseRecOn with
  | nil => rfl
  | append_singleton ps p ih => rw [registerEach_concat, lockNew_register, ih]

/-- Placements add the configurations that were not there, each where it is named first. -/
theorem names_registerEach (c : Container) (ps : List (ConfigurationName × Coordinate)) :
    (c.registerEach ps).names =
      c.names ++ ((ps.map Prod.fst).filter (· ∉ c.names)).eraseDups := by
  have hstep : ∀ (c : Container) (p : ConfigurationName × Coordinate),
      (if c.names.contains p.1 then c.names else c.names ++ [p.1]) =
        (c.register p.1 p.2).names := by
    intro c p
    rw [names_register, names_create]
    by_cases h : p.1 ∈ c.names <;> simp [has_eq_true_iff, h]
  rw [← foldl_append_new, List.foldl_map]
  exact (List.foldl_hom names hstep).symm

/-- A registration leaves locks as they are; if it makes a configuration, the container decides. -/
theorem locked_register {d : Container} {name : ConfigurationName} {k : Coordinate}
    (hnames : c.names ⊆ d.names) (hlock : d.lockNew = c.lockNew)
    (h : ∀ x ∈ d.configurations,
      x.locked = ((c.get? x.name).map Configuration.locked).getD c.lockNew) :
    ∀ x ∈ (d.register name k).configurations,
      x.locked = ((c.get? x.name).map Configuration.locked).getD c.lockNew := by
  have hcreate : ∀ x ∈ (d.create name).configurations,
      x.locked = ((c.get? x.name).map Configuration.locked).getD c.lockNew := by
    refine forall_create h fun hnew => ?_
    -- what the second container lacks the first one lacks as well
    have hnone : c.get? name = none := by
      rw [← Option.not_isSome_iff_eq_none, ← has_eq_isSome_get?, has_eq_true_iff]
      intro hname
      rw [has_eq_true_iff.2 (hnames hname)] at hnew
      cases hnew
    rw [hnone]
    exact hlock
  refine forall_update hcreate (fun x hx _ => ?_) fun _ hx _ => hx
  split <;> exact hx

/-- Placements leave locks as they are; of a new configuration the container decides. -/
theorem locked_registerEach (c : Container) (ps : List (ConfigurationName × Coordinate)) :
    ∀ x ∈ (c.registerEach ps).configurations,
      x.locked = ((c.get? x.name).map Configuration.locked).getD c.lockNew := by
  induction ps using List.reverseRecOn with
  | nil =>
    intro x hx
    have hfound : c.get? x.name = some x := get?_of_mem hx
    rw [hfound]
    rfl
  | append_singleton ps p ih =>
    rw [registerEach_concat]
    refine locked_register ?_ (lockNew_registerEach c ps) ih
    rw [names_registerEach]
    exact List.subset_append_left ..

/-- New placements without repetitions come behind what is listed, all of them and in their
order. -/
theorem dependencies_registerEach_of_new {ps : List (ConfigurationName × Coordinate)}
    (hnodup : ps.Nodup) (hnew : ∀ p ∈ ps, p.2 ∉ c.dependencies p.1) (name : ConfigurationName) :
    (c.registerEach ps).dependencies name = c.dependencies name ++ coordinatesAt name ps := by
  have hkept : (coordinatesAt name ps).filter (· ∉ c.dependencies name) =
      coordinatesAt name ps := by
    rw [List.filter_eq_self]
    intro k hk
    exact decide_eq_true (hnew (name, k) (mem_coordinatesAt_iff.1 hk))
  have hdistinct : (coordinatesAt name ps).Nodup := by
    refine hnodup.filterMap fun p q k hp hq => ?_
    simp only [Option.mem_def, Option.ite_none_right_eq_some, Option.some.injEq] at hp hq
    exact Prod.ext (hp.1.trans hq.1.symm) (hp.2.trans hq.2.symm)
  rw [dependencies_registerEach, dependencies_registerAll, hkept, eraseDups_eq_self_iff.2 hdistinct]

end Container

namespace Pom

namespace Dependency

/-! ## Skipped and placed dependencies -/

/-- Does the dependency lack a group or an artifact? -/
def IsIncomplete (d : Dependency) : Prop := d.groupId.getD "" = "" ∨ d.artifactId.getD "" = ""

instance (d : Dependency) : Decidable d.IsIncomplete := inferInstanceAs (Decidable (_ ∨ _))

/-- What is reported of a dependency that is not registered: it is incomplete, or its scope
corresponds to no configuration. -/
def skipped? (d : Dependency) : Option Skipped :=
  if d.IsIncomplete then some ⟨d.label, d.line, .missingCoordinates⟩
  else
    match d.scope with
    | some (.other text) => some ⟨d.label, d.line, .unmappedScope text⟩
    | _ => none

/-- Where a complete dependency is registered: under the configuration of its scope, which is
`compile` unless declared. -/
def place? (d : Dependency) : Option (ConfigurationName × Coordinate) :=
  if d.IsIncomplete then none
  else
    (d.scope.getD .compile).configuration?.map fun name =>
      (name, ⟨d.groupId.getD "", d.artifactId.getD "", d.version.filter (· ≠ "")⟩)

/-- A dependency has a coordinate unless it is incomplete. -/
theorem coordinate?_eq (d : Dependency) :
    d.coordinate? =
      if d.IsIncomplete then none
      else some ⟨d.groupId.getD "", d.artifactId.getD "", d.version.filter (· ≠ "")⟩ := by
  have hfield : ∀ s : Option String,
      nonEmpty s = if s.getD "" = "" then none else some (s.getD "") := by
    intro s
    cases s with
    | none => rfl
    | some text => by_cases h : text = "" <;> simp [nonEmpty, h]
  rw [coordinate?, hfield, hfield]
  unfold IsIncomplete
  by_cases hgroup : d.groupId.getD "" = "" <;> by_cases hartifact : d.artifactId.getD "" = "" <;>
    simp [hgroup, hartifact, nonEmpty]

theorem toOption_target (d : Dependency) : d.target.toOption = d.place? := by
  rw [target, coordinate?_eq, place?]
  by_cases h : d.IsIncomplete
  · simp only [if_pos h]
    rfl
  · simp only [if_neg h, configuration?, effectiveScope]
    cases (d.scope.getD .compile).configuration? <;> rfl

/-- What is reported of a dependency without a place. -/
theorem skip_of_target (d : Dependency) :
    (match d.target with
      | .error reason => some ⟨d.label, d.line, reason⟩
      | .ok _ => none) = d.skipped? := by
  rw [target, coordinate?_eq, skipped?]
  by_cases h : d.IsIncomplete
  · simp only [if_pos h]
  · simp only [if_neg h, configuration?, effectiveScope]
    cases d.scope with
    | none => rfl
    | some scope => cases scope <;> rfl

end Dependency

theorem placements_eq (ds : List Dependency) : placements ds = ds.filterMap Dependency.place? :=
  List.filterMap_congr fun d _ => d.toOption_target

theorem skips_eq (ds : List Dependency) : skips ds = ds.filterMap Dependency.skipped? :=
  List.filterMap_congr fun d _ => d.skip_of_target

/-! ## The report -/

/-- The container behind an import is the one in which what is reported as registered was
registered. -/
theorem container_importInto_eq_registered (doc : Document) (c : Container) :
    (doc.importInto c).1 = c.registerEach (doc.importInto c).2.registered := by
  rw [Document.importInto]
  generalize doc.dependencies = ds
  induction ds using List.reverseRecOn with
  | nil => rfl
  | append_singleton ds d ih =>
    rw [List.foldl_append, List.foldl_cons, List.foldl_nil]
    generalize ds.foldl importOne (c, {}) = state at ih
    obtain ⟨current, report⟩ := state
    simp only at ih
    unfold importOne
    cases d.target with
    | error reason => exact ih
    | ok p =>
      simp only
      split
      · exact ih
      · rw [Container.registerEach_concat, ← ih]

/-- **What an import changes and reports.**  Every dependency is reported as registered, counted as
present or skipped.  Skipped are, in their order, those that are incomplete or have a scope without
configuration.  Registered are, in their order, the places of the others that were not taken before,
each where it is named first.  The container gets the configurations that it lacked, and each
configuration lists what it listed and behind it what is reported under its name.  It takes part in
locking as before, or as the container decides of new ones. -/
theorem importInto_reports (doc : Document) (c : Container) :
    let after := (doc.importInto c).1
    let report := (doc.importInto c).2
    (report.registered.length + report.alreadyPresent + report.skipped.length =
        doc.dependencies.length ∧
      report.skipped = doc.dependencies.filterMap Dependency.skipped? ∧
      report.registered =
        ((doc.dependencies.filterMap Dependency.place?).filter
          fun p => p.2 ∉ c.dependencies p.1).eraseDups) ∧
    (after.names =
        c.names ++ ((report.registered.map Prod.fst).filter (· ∉ c.names)).eraseDups ∧
      (∀ name, after.dependencies name =
        c.dependencies name ++ (report.registered.filter (·.1 = name)).map Prod.snd) ∧
      (∀ x ∈ after.configurations,
        x.locked = ((c.get? x.name).map Configuration.locked).getD c.lockNew) ∧
      after.lockNew = c.lockNew) := by
  intro after report
  obtain ⟨-, hregistered, hcounted, hskipped⟩ := imported_importInto doc c
  have hnew : report.registered = ((doc.dependencies.filterMap Dependency.place?).filter
      fun p => p.2 ∉ c.dependencies p.1).eraseDups := by
    rw [← placements_eq]
    refine hregistered.trans (congrArg List.eraseDups (List.filter_congr fun p _ => ?_))
    simp [Container.lists]
  have hafter : after = c.registerEach report.registered :=
    container_importInto_eq_registered doc c
  refine ⟨⟨?_, ?_, hnew⟩, ?_, fun name => ?_, ?_, ?_⟩
  · have hall := length_placements_add_length_skips doc.dependencies
    rw [← hcounted, ← hskipped] at hall
    exact hall
  · rw [← skips_eq]
    exact hskipped
  · rw [hafter, Container.names_registerEach]
  · have hfresh : ∀ p ∈ report.registered, p.2 ∉ c.dependencies p.1 := by
      intro p hp
      rw [hnew, List.mem_eraseDups, List.mem_filter, decide_eq_true_eq] at hp
      exact hp.2
    have hdistinct : report.registered.Nodup := hnew ▸ nodup_eraseDups _
    have hplaced : Container.coordinatesAt name report.registered =
        (report.registered.filter (·.1 = name)).map Prod.snd := by
      rw [Container.coordinatesAt, ← List.filterMap_eq_map, List.filterMap_filter]
      simp
    rw [hafter, Container.dependencies_registerEach_of_new hdistinct hfresh, hplaced]
  · rw [hafter]
    exact Container.locked_registerEach c _
  · rw [hafter, Container.lockNew_registerEach]

end Pom

end Vendoring
