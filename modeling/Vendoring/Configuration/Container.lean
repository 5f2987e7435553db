import Vendoring.Configuration.Name
import Vendoring.Coordinate

/-!
# Containers of configurations

A container holds the configurations of one subproject in the order of their creation.  A
configuration lists coordinates without repetition, and takes part in dependency locking or not;
the container decides whether a new configuration does.

A container is known by the configurations it has under each name: `get?_create`, `get?_update` and
`dependencies_register` say what the operations do to them.
-/

namespace Vendoring

/-- A named list of dependencies. -/
structure Configuration where
  name : ConfigurationName
  dependencies : List Coordinate
  /-- Does the configuration take part in dependency locking? -/
  locked : Bool
  deriving DecidableEq

/-- The configurations of a subproject, oldest first, no two of one name. -/
structure Container where
  configurations : List Configuration
  /-- Are new configurations locked? -/
  lockNew : Bool
  distinct : (configurations.map Configuration.name).Nodup := by simp
  deriving DecidableEq

namespace Container

@[ext] theorem ext {c d : Container} (h : c.configurations = d.configurations)
    (hl : c.lockNew = d.lockNew) : c = d := by
  cases c; cases d; simp_all

/-- A container without configurations. -/
def empty (lockNew : Bool) : Container where
  configurations := []
  lockNew := lockNew

/-- The configuration of the given name. -/
def get? (c : Container) (name : ConfigurationName) : Option Configuration :=
  c.configurations.find? (·.name = name)

/-- The coordinates listed under a name. -/
def dependencies (c : Container) (name : ConfigurationName) : List Coordinate :=
  ((c.get? name).map Configuration.dependencies).getD []

/-- Is there a configuration of the given name? -/
def has (c : Container) (name : ConfigurationName) : Bool :=
  c.configurations.any (·.name = name)

/-- The container in which a configuration of the given name exists. -/
def create (c : Container) (name : ConfigurationName) : Container :=
  if h : c.has name then c
  else
    { c with
      configurations := c.configurations ++ [⟨name, [], c.lockNew⟩]
      distinct := by
        simp only [has, List.any_eq_true, decide_eq_true_eq, not_exists, not_and] at h
        simp only [List.map_append, List.map_cons, List.map_nil, List.nodup_append, c.distinct,
          true_and, List.mem_map, List.mem_singleton]
        refine ⟨by simp, ?_⟩
        rintro a ⟨x, hx, rfl⟩ b rfl
        exact h x hx }

/-- Changes the configuration of the given name in place. -/
def update (c : Container) (name : ConfigurationName) (f : Configuration → Configuration)
    (keeps : ∀ x, (f x).name = x.name) : Container :=
  { c with
    configurations := c.configurations.map fun x => if x.name = name then f x else x
    distinct := by
      have h : (c.configurations.map fun x => if x.name = name then f x else x).map
          Configuration.name = c.configurations.map Configuration.name := by
        rw [List.map_map]
        refine List.map_congr_left fun x _ => ?_
        simp only [Function.comp]
        split <;> simp [keeps]
      rw [h]
      exact c.distinct }

/-- Takes the configuration of the given name, which is created if need be, out of dependency
locking. -/
def unlock (c : Container) (name : ConfigurationName) : Container :=
  (c.create name).update name (fun x => { x with locked := false }) fun _ => rfl

/-- Is the coordinate listed under the given name? -/
def lists (c : Container) (name : ConfigurationName) (k : Coordinate) : Bool :=
  (c.dependencies name).contains k

/-- Lists a coordinate under the given name, whose configuration is created if need be.  A
coordinate that is listed there already stays where it is. -/
def register (c : Container) (name : ConfigurationName) (k : Coordinate) : Container :=
  (c.create name).update name
    (fun x => if x.dependencies.contains k then x
      else { x with dependencies := x.dependencies ++ [k] })
    fun x => by split <;> rfl

/-- Lists several coordinates under one name. -/
def registerAll (c : Container) (name : ConfigurationName) (ks : List Coordinate) : Container :=
  ks.foldl (·.register name ·) c

/-- The names that take part in dependency locking. -/
def lockedNames (c : Container) : List ConfigurationName :=
  (c.configurations.filter Configuration.locked).map Configuration.name

/-- The number of registrations in all configurations together. -/
def registrationCount (c : Container) : Nat :=
  c.configurations.foldl (fun n x => n + x.dependencies.length) 0

/-! ## What is under a name -/

@[simp] theorem dependencies_empty (lockNew : Bool) (name : ConfigurationName) :
    (empty lockNew).dependencies name = [] := rfl

/-- There is a configuration of a name if one is found. -/
theorem has_eq_isSome_get? (c : Container) (name : ConfigurationName) :
    c.has name = (c.get? name).isSome := by
  rw [has, get?, Bool.eq_iff_iff, List.any_eq_true, List.find?_isSome]

/-- What is found has the name that was asked for. -/
theorem name_of_get? {c : Container} {name : ConfigurationName} {x : Configuration}
    (h : c.get? name = some x) : x.name = name := by
  simpa using List.find?_some h

/-- Creating a configuration changes nothing but that a new one is there, if there was none. -/
theorem get?_create (c : Container) (name other : ConfigurationName) :
    (c.create name).get? other =
      if other = name then some ((c.get? name).getD ⟨name, [], c.lockNew⟩) else c.get? other := by
  unfold create
  split
  · next h =>
    obtain ⟨x, hx⟩ := Option.isSome_iff_exists.1 (has_eq_isSome_get? c name ▸ h)
    by_cases ho : other = name
    · subst ho
      simp [hx]
    · simp [ho]
  · next h =>
    have hnone : c.get? name = none := by simpa [has_eq_isSome_get?] using h
    by_cases ho : other = name
    · subst ho
      simp only [get?] at hnone
      simp [get?, List.find?_append, hnone]
    · simp [get?, List.find?_append, ho, Ne.symm ho]

/-- A change reaches the configuration of the given name only. -/
theorem get?_update (c : Container) (name : ConfigurationName) (f : Configuration → Configuration)
    (keeps : ∀ x, (f x).name = x.name) (other : ConfigurationName) :
    (c.update name f keeps).get? other =
      if other = name then (c.get? name).map f else c.get? other := by
  have h : ∀ xs : List Configuration,
      (xs.map fun x => if x.name = name then f x else x).find? (·.name = other) =
        if other = name then (xs.find? (·.name = name)).map f
        else xs.find? (·.name = other) := by
    intro xs
    induction xs with
    | nil => simp
    | cons x xs ih =>
      by_cases ho : other = name
      · subst ho
        by_cases hx : x.name = other <;> simp_all
      · by_cases hx : x.name = name
        · have hxo : ¬ x.name = other := fun h => ho (h.symm.trans hx)
          simp_all
        · by_cases hxo : x.name = other <;> simp_all
  exact h c.configurations

/-- A new configuration lists nothing. -/
@[simp] theorem dependencies_create (c : Container) (name other : ConfigurationName) :
    (c.create name).dependencies other = c.dependencies other := by
  rw [dependencies, get?_create]
  split
  · next h =>
    subst h
    cases hx : c.get? other <;> simp [dependencies, hx]
  · rfl

/-- Locking has nothing to do with what is listed. -/
@[simp] theorem dependencies_unlock (c : Container) (name other : ConfigurationName) :
    (c.unlock name).dependencies other = c.dependencies other := by
  rw [unlock, dependencies, get?_update, ← dependencies_create c name other]
  split
  · next h =>
    subst h
    cases hx : (c.create other).get? other <;> simp [dependencies, hx]
  · rfl

/-- A registered coordinate comes last under its name, unless it is listed there. -/
theorem dependencies_register (c : Container) (name other : ConfigurationName) (k : Coordinate) :
    (c.register name k).dependencies other =
      if other = name ∧ k ∉ c.dependencies name then c.dependencies name ++ [k]
      else c.dependencies other := by
  rw [register, dependencies, get?_update]
  by_cases ho : other = name
  · subst ho
    rw [← dependencies_create c other other]
    obtain ⟨x, hx⟩ : ∃ x, (c.create other).get? other = some x := by simp [get?_create]
    by_cases hk : k ∈ x.dependencies <;> simp [dependencies, hx, hk]
  · simp only [ho, if_false, false_and]
    exact dependencies_create c name other

end Container

end Vendoring
