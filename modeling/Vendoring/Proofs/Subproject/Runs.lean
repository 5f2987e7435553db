import Mathlib.Data.List.Nodup
import Vendoring.Build
import Vendoring.Proofs.Configuration.Growth

/-!
# Runs of a subproject

A subproject starts without dependencies, and then POMs are imported and shaded sets installed, in
any order and as often as one likes.  An operation is a change in place, which is refused with
nothing done, or done to the container (`Operation.change_cases`).

Five facts about the container hold at the start and are kept by each operation (`Sound`).  One of
them looks back: which configurations are unlocked depends on the sets that were installed before,
so the invariant is about a container together with the names of these sets.

* `sound_register` and `sound_unlock`: what the elementary changes of a container keep;
* `sound_perform` and `sound_run`: the invariant for an operation and for a run;
* `run_orderly`: what holds of every run.
-/

namespace Vendoring

/-! ## Operations -/

namespace Subproject

/-- What can be done to a subproject.  The file system is the one of that moment. -/
inductive Operation
  | importPom (fs : FileSystem) (path : String)
  | installShaded (shaded : ShadedSet)

namespace Operation

/-- An operation as a change of the subproject. -/
def change : Operation → EStateM Build.Fault Subproject Unit
  | importPom fs path => InPlace.relabel .pom (importPomInPlace fs path)
  | installShaded shaded => InPlace.relabel .packaging (installShadedInPlace shaded)

/-- Can the operation not be done?  A file that is no POM cannot be imported, and a set with a
reserved name cannot be installed. -/
def Refused : Operation → Prop
  | importPom fs path => ∃ e, Pom.load fs path = .error e
  | installShaded shaded => shaded.isReserved = true

/-- What an operation that can be done makes of a container. -/
inductive Yields (c : Container) : Operation → Container → Prop
  | imported {fs : FileSystem} {path : String} {document : Pom.Document}
      (h : Pom.load fs path = .ok document) : Yields c (importPom fs path) (document.importInto c).1
  | installed {shaded : ShadedSet} (h : shaded.isReserved = false) :
      Yields c (installShaded shaded)
        ((c.unlock shaded.name).registerAll shaded.name shaded.dependencies)

theorem not_refused_of_yields {operation : Operation} {c d : Container}
    (h : operation.Yields c d) : ¬ operation.Refused := by
  cases h with
  | imported hload =>
    rintro ⟨e, he⟩
    rw [hload] at he
    cases he
  | installed hname => exact ne_true_of_eq_false hname

/-- An operation is refused and leaves the subproject as it was, or the container is changed. -/
theorem change_cases (operation : Operation) (p : Subproject) :
    (operation.Refused ∧ ∃ e, operation.change.run p = .error e p) ∨
      ∃ c, operation.Yields p.container c ∧
        operation.change.run p = .ok () { p with container := c } := by
  cases operation with
  | importPom fs path =>
    rw [change, EStateM.run, InPlace.relabel, run_importPomInPlace]
    cases hload : Pom.load fs path with
    | error e => exact .inl ⟨⟨e, hload⟩, .pom e, rfl⟩
    | ok document => exact .inr ⟨_, .imported hload, rfl⟩
  | installShaded shaded =>
    rw [change, EStateM.run, InPlace.relabel, run_installShadedInPlace]
    cases hreserved : shaded.isReserved with
    | true => exact .inl ⟨hreserved, .packaging (.reservedName shaded.name.text), rfl⟩
    | false => exact .inr ⟨_, .installed hreserved, rfl⟩

end Operation

/-- The subproject as an operation leaves it, also where the operation fails. -/
def perform (p : Subproject) (operation : Operation) : Subproject :=
  InPlace.left operation.change p

/-- The subproject behind some operations. -/
def run (conventions : Conventions) (operations : List Operation) : Subproject :=
  operations.foldl perform (new conventions)

@[simp] theorem run_concat (conventions : Conventions) (operations : List Operation)
    (operation : Operation) :
    run conventions (operations ++ [operation]) =
      (run conventions operations).perform operation := by
  simp [run]

theorem perform_cases (p : Subproject) (operation : Operation) :
    (operation.Refused ∧ p.perform operation = p) ∨
      ∃ c, operation.Yields p.container c ∧ p.perform operation = { p with container := c } := by
  rcases operation.change_cases p with ⟨hrefused, e, hrun⟩ | ⟨c, hyields, hrun⟩
  · exact .inl ⟨hrefused, by rw [perform, InPlace.left, hrun]⟩
  · exact .inr ⟨c, hyields, by rw [perform, InPlace.left, hrun]⟩

end Subproject

/-! ## The invariant -/

namespace Container

/-- Is the name the one that is read from its text? -/
def Canonical (name : ConfigurationName) : Prop := ConfigurationName.ofText name.text = name

/-- What holds of a container in which shaded sets with certain names were installed. -/
structure Sound (shaded : ConfigurationName → Prop) (c : Container) : Prop where
  lockNew : c.lockNew = true
  /-- No name is spelt like another one. -/
  canonical : ∀ x ∈ c.configurations, Canonical x.name
  /-- No coordinate is listed twice. -/
  nodup : ∀ x ∈ c.configurations, x.dependencies.Nodup
  /-- The shaded sets are what is not locked. -/
  locked : ∀ x ∈ c.configurations, x.locked = false ↔ shaded x.name
  /-- Every shaded set has a configuration. -/
  present : ∀ name, shaded name → c.has name = true

variable {shaded : ConfigurationName → Prop} {c : Container} {name : ConfigurationName}

theorem sound_empty : Sound (fun _ => False) (empty true) where
  lockNew := rfl
  canonical x hx := by cases hx
  nodup x hx := by cases hx
  locked x hx := by cases hx
  present _ h := h.elim

theorem has_mono {d : Container} (h : c.names ⊆ d.names) (hname : c.has name = true) :
    d.has name = true :=
  has_eq_true_iff.2 (h (has_eq_true_iff.1 hname))

theorem sound_create (h : Sound shaded c) (hname : Canonical name) :
    Sound shaded (c.create name) where
  lockNew := by
    unfold create
    split <;> exact h.lockNew
  canonical := forall_create h.canonical fun _ => hname
  nodup := forall_create h.nodup fun _ => List.nodup_nil
  locked := by
    refine forall_create h.locked fun hnew => ?_
    -- a set that was installed would have a configuration
    have hshaded : ¬ shaded name := fun hshaded => by simp [h.present name hshaded] at hnew
    simp [h.lockNew, hshaded]
  present other hother := has_mono (names_prefix_create c name).subset (h.present other hother)

/-- A registration under a canonical name keeps the invariant. -/
theorem sound_register (h : Sound shaded c) (hname : Canonical name) (k : Coordinate) :
    Sound shaded (c.register name k) := by
  have hcreate := sound_create h hname
  exact
    { lockNew := hcreate.lockNew
      canonical := by
        refine forall_update hcreate.canonical (fun x hx _ => ?_) fun _ hx _ => hx
        split <;> exact hx
      nodup := by
        refine forall_update hcreate.nodup (fun x hx _ => ?_) fun _ hx _ => hx
        split
        · exact hx
        · next hk =>
          rw [← List.concat_eq_append]
          exact List.Nodup.concat (by simpa using hk) hx
      locked := by
        refine forall_update hcreate.locked (fun x hx _ => ?_) fun _ hx _ => hx
        split <;> exact hx
      present := fun other hother =>
        has_mono (by rw [register, names_update]; exact List.Subset.refl _)
          (hcreate.present other hother) }

/-- Unlocking a configuration makes its name one more of those that are not locked. -/
theorem sound_unlock (h : Sound shaded c) (hname : Canonical name) :
    Sound (fun other => shaded other ∨ other = name) (c.unlock name) := by
  have hcreate := sound_create h hname
  have hnames : (c.create name).names ⊆ (c.unlock name).names := by
    rw [names_unlock]
    exact List.Subset.refl _
  exact
    { lockNew := hcreate.lockNew
      canonical := forall_update hcreate.canonical (fun _ hx _ => hx) fun _ hx _ => hx
      nodup := forall_update hcreate.nodup (fun _ hx _ => hx) fun _ hx _ => hx
      locked := by
        refine forall_update hcreate.locked (fun x _ hx => ?_) fun x hx hother => ?_
        · simp [hx]
        · simp [hx, hother]
      present := by
        rintro other (hother | rfl)
        · exact has_mono hnames (hcreate.present other hother)
        · refine has_mono hnames ?_
          rw [has_eq_isSome_get?, get?_create]
          simp }

theorem sound_registerAll (h : Sound shaded c) (hname : Canonical name) (ks : List Coordinate) :
    Sound shaded (c.registerAll name ks) := by
  induction ks generalizing c with
  | nil => exact h
  | cons k ks ih => exact ih (sound_register h hname k)

end Container

namespace ConfigurationName

/-- The build's own names are canonical. -/
theorem canonical_of_not_isCustom {name : ConfigurationName} (h : name.isCustom = false) :
    Container.Canonical name := by
  cases name with
  | custom text => cases h
  | _ => rfl

/-- A name whose text is read as a made-up name is canonical. -/
theorem canonical_of_isCustom {name : ConfigurationName}
    (h : (ofText name.text).isCustom = true) : Container.Canonical name := by
  cases name with
  | custom text =>
    unfold Container.Canonical
    generalize hread : ofText (custom text).text = found at h
    cases found with
    | custom text' =>
      have htext := congrArg ConfigurationName.text hread
      rw [text_ofText] at htext
      exact congrArg custom htext.symm
    | _ => cases h
  | _ => cases h

end ConfigurationName

theorem ShadedSet.canonical_name {s : ShadedSet} (h : s.isReserved = false) :
    Container.Canonical s.name :=
  ConfigurationName.canonical_of_isCustom (isCustom_ofText h)

namespace Subproject

open Container (Sound Canonical)

variable {conventions : Conventions} {operations : List Operation}

/-! ## Operations and runs -/

/-- Has a set of this name been installed in the course of the operations? -/
def HasInstalled (conventions : Conventions) (operations : List Operation)
    (name : ConfigurationName) : Prop :=
  ∃ earlier shaded, earlier ++ [.installShaded shaded] <+: operations ∧ shaded.name = name ∧
    ∃ q, (Operation.installShaded shaded).change.run (run conventions earlier) = .ok () q

namespace Operation

/-- Does the operation install a set of this name? -/
def Installs (name : ConfigurationName) : Operation → Prop
  | importPom _ _ => False
  | installShaded shaded => shaded.name = name ∧ shaded.isReserved = false

theorem not_installs_of_refused {operation : Operation} (h : operation.Refused)
    (name : ConfigurationName) : ¬ operation.Installs name := by
  cases operation with
  | importPom fs path => exact id
  | installShaded shaded => exact fun hinstalls => absurd h (ne_true_of_eq_false hinstalls.2)

/-- Whether an operation fails does not depend on what was done before. -/
theorem exists_run_eq_error_iff (operation : Operation) (p : Subproject) :
    (∃ e q, operation.change.run p = .error e q) ↔ operation.Refused := by
  rcases operation.change_cases p with ⟨hrefused, e, hrun⟩ | ⟨c, hyields, hrun⟩
  · exact iff_of_true ⟨e, p, hrun⟩ hrefused
  · refine iff_of_false ?_ (not_refused_of_yields hyields)
    rintro ⟨e, q, he⟩
    rw [hrun] at he
    cases he

/-- An operation that fails leaves the subproject as it was. -/
theorem eq_of_run_eq_error {operation : Operation} {p q : Subproject} {e : Build.Fault}
    (h : operation.change.run p = .error e q) : q = p := by
  rcases operation.change_cases p with ⟨-, e', hrun⟩ | ⟨c, -, hrun⟩
  · rw [hrun] at h
    cases h
    rfl
  · rw [hrun] at h
    cases h

theorem exists_run_eq_ok_iff (operation : Operation) (p : Subproject) :
    (∃ q, operation.change.run p = .ok () q) ↔ ¬ operation.Refused := by
  rw [← exists_run_eq_error_iff operation p]
  cases operation.change.run p <;> simp

end Operation

theorem hasInstalled_concat_iff {operation : Operation} {name : ConfigurationName} :
    HasInstalled conventions (operations ++ [operation]) name ↔
      HasInstalled conventions operations name ∨ operation.Installs name := by
  simp only [HasInstalled, List.prefix_concat_iff, Operation.exists_run_eq_ok_iff,
    Operation.Refused, Bool.not_eq_true]
  constructor
  · rintro ⟨earlier, shaded, hlast | hbefore, hname, hreserved⟩
    · obtain ⟨rfl, hlast⟩ := List.append_inj' hlast rfl
      obtain rfl : Operation.installShaded shaded = operation := by simpa using hlast
      exact .inr ⟨hname, hreserved⟩
    · exact .inl ⟨earlier, shaded, hbefore, hname, hreserved⟩
  · rintro (⟨earlier, shaded, hbefore, hname, hreserved⟩ | hinstalls)
    · exact ⟨earlier, shaded, .inr hbefore, hname, hreserved⟩
    · cases operation with
      | importPom fs path => exact hinstalls.elim
      | installShaded shaded => exact ⟨operations, shaded, .inl rfl, hinstalls.1, hinstalls.2⟩

/-- An operation keeps the invariant, with the name of the set that it installs. -/
theorem sound_perform {shaded : ConfigurationName → Prop} {p : Subproject}
    (h : Sound shaded p.container) (operation : Operation) :
    Sound (fun name => shaded name ∨ operation.Installs name) (p.perform operation).container := by
  rcases p.perform_cases operation with ⟨hrefused, hperform⟩ | ⟨c, hyields, hperform⟩
  · simpa [hperform, Operation.not_installs_of_refused hrefused] using h
  · rw [hperform]
    cases hyields with
    | imported =>
      simp only [Operation.Installs, or_false]
      exact Pom.importInto_induction _ h fun c name k hname hc =>
        Container.sound_register hc (ConfigurationName.canonical_of_not_isCustom hname) k
    | @installed s hreserved =>
      have hname := ShadedSet.canonical_name hreserved
      simpa [Operation.Installs, hreserved, eq_comm] using
        Container.sound_registerAll (Container.sound_unlock h hname) hname s.dependencies

/-- A run keeps the invariant. -/
theorem sound_run (conventions : Conventions) (operations : List Operation) :
    Sound (HasInstalled conventions operations) (run conventions operations).container := by
  induction operations using List.reverseRecOn with
  | nil =>
    have hnone : HasInstalled conventions [] = fun _ => False := by
      funext name
      simp [HasInstalled]
    rw [hnone]
    exact Container.sound_empty
  | append_singleton operations operation ih =>
    have hinstalled : HasInstalled conventions (operations ++ [operation]) =
        fun name => HasInstalled conventions operations name ∨ operation.Installs name :=
      funext fun name => propext hasInstalled_concat_iff
    rw [hinstalled, run_concat]
    exact sound_perform ih operation

theorem grows_perform (p : Subproject) (operation : Operation) :
    p.container.Grows (p.perform operation).container := by
  rcases p.perform_cases operation with ⟨-, hperform⟩ | ⟨c, hyields, hperform⟩
  · rw [hperform]
    exact .refl _
  · rw [hperform]
    cases hyields with
    | imported => exact Pom.grows_importInto _ p.container
    | installed => exact Container.grows_install _ p.container

/-- Behind more operations the container holds what it held, and perhaps more. -/
theorem grows_run (conventions : Conventions) (operations later : List Operation) :
    (run conventions operations).container.Grows
      (run conventions (operations ++ later)).container := by
  induction later using List.reverseRecOn with
  | nil =>
    rw [List.append_nil]
    exact .refl _
  | append_singleton later operation ih =>
    rw [← List.append_assoc, run_concat]
    exact ih.trans (grows_perform _ operation)

/-- An installed set has a name of its own. -/
theorem isCustom_of_hasInstalled {name : ConfigurationName}
    (h : HasInstalled conventions operations name) :
    (ConfigurationName.ofText name.text).isCustom = true := by
  obtain ⟨earlier, shaded, -, rfl, hok⟩ := h
  have hreserved := (Operation.exists_run_eq_ok_iff _ _).1 hok
  exact ShadedSet.isCustom_ofText (eq_false_of_ne_true hreserved)

/-- **What holds of every run of a subproject.**  No two configurations have names of the same text,
and none lists a coordinate twice.  The unlocked configurations are those of the shaded sets that
were installed before: each of them has the very name of such a set, so the build's own
configurations are locked, and each such set has one.  Whether an operation fails depends on the
operation alone, and if it does, it leaves everything as it was.  Nothing that is in the container
at some time is ever removed from it or moved within it. -/
theorem run_orderly (conventions : Conventions) (operations : List Operation) :
    let p := run conventions operations
    (p.container.configurations.map (·.name.text)).Nodup ∧
    (∀ x ∈ p.container.configurations, x.dependencies.Nodup) ∧
    (∀ x ∈ p.container.configurations,
      x.locked = false ↔ HasInstalled conventions operations x.name) ∧
    (∀ name, HasInstalled conventions operations name →
      ∃ x ∈ p.container.configurations, x.name = name ∧ x.locked = false) ∧
    (∀ x ∈ p.container.configurations,
      (ConfigurationName.ofText x.name.text).isCustom = false → x.locked = true) ∧
    (∀ operation : Operation,
      ((∃ e q, operation.change.run p = .error e q) ↔ operation.Refused) ∧
      ∀ e q, operation.change.run p = .error e q → q = p) ∧
    (∀ later, p.container.Grows (run conventions (operations ++ later)).container) := by
  intro p
  have hsound : Sound (HasInstalled conventions operations) p.container :=
    sound_run conventions operations
  refine ⟨?_, hsound.nodup, hsound.locked, ?_, ?_, ?_, grows_run conventions operations⟩
  · have htexts : p.container.configurations.map (·.name.text) =
        (p.container.configurations.map Configuration.name).map ConfigurationName.text := by
      rw [List.map_map]
      rfl
    rw [htexts]
    refine List.Nodup.map_on ?_ p.container.distinct
    intro name hname other hother htext
    obtain ⟨x, hx, rfl⟩ := List.mem_map.1 hname
    obtain ⟨y, hy, rfl⟩ := List.mem_map.1 hother
    have hx' : Canonical x.name := hsound.canonical x hx
    have hy' : Canonical y.name := hsound.canonical y hy
    rw [← hx', ← hy', htext]
  · intro name hinstalled
    obtain ⟨x, hx, hname⟩ := List.any_eq_true.1 (hsound.present name hinstalled)
    obtain rfl := of_decide_eq_true hname
    exact ⟨x, hx, rfl, (hsound.locked x hx).2 hinstalled⟩
  · intro x hx hown
    rw [← Bool.not_eq_false, hsound.locked x hx]
    intro hinstalled
    rw [isCustom_of_hasInstalled hinstalled] at hown
    cases hown
  · intro operation
    exact ⟨operation.exists_run_eq_error_iff p, fun _ _ => Operation.eq_of_run_eq_error⟩

end Subproject

end Vendoring
