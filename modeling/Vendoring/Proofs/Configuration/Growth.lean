import Mathlib.Data.List.Infix
import Vendoring.Configuration.ShadedSet
import Vendoring.Pom.Import

/-!
# Containers only grow

Whatever is done to a container, what is in it stays where it is: new configurations come behind the
old ones, and new coordinates behind those that a configuration lists (`Grows`).  A property of
single configurations is carried through a change with `forall_create` and `forall_update`.
-/

namespace Vendoring.Container

variable {c d : Container}

/-! ## Names -/

/-- The names of the configurations, oldest first. -/
def names (c : Container) : List ConfigurationName := c.configurations.map Configuration.name

theorem has_eq_true_iff {name : ConfigurationName} : c.has name = true ↔ name ∈ c.names := by
  simp [has, names]

theorem names_create (c : Container) (name : ConfigurationName) :
    (c.create name).names = if c.has name then c.names else c.names ++ [name] := by
  by_cases h : c.has name = true
  · simp [create, h]
  · simp [create, h, names]

@[simp] theorem names_update (c : Container) (name : ConfigurationName)
    (f : Configuration → Configuration) (keeps : ∀ x, (f x).name = x.name) :
    (c.update name f keeps).names = c.names := by
  simp only [names, update, List.map_map]
  refine List.map_congr_left fun x _ => ?_
  by_cases h : x.name = name <;> simp [h, keeps]

theorem names_register (c : Container) (name : ConfigurationName) (k : Coordinate) :
    (c.register name k).names = (c.create name).names :=
  names_update ..

theorem names_unlock (c : Container) (name : ConfigurationName) :
    (c.unlock name).names = (c.create name).names :=
  names_update ..

/-- To create a configuration is to add its name at the end, unless it is there. -/
theorem names_prefix_create (c : Container) (name : ConfigurationName) :
    c.names <+: (c.create name).names := by
  rw [names_create]
  split
  · exact List.prefix_rfl
  · exact List.prefix_append ..

/-! ## Properties of all configurations -/

/-- A property of all configurations holds after the creation of one that has it. -/
theorem forall_create {P : Configuration → Prop} {name : ConfigurationName}
    (h : ∀ x ∈ c.configurations, P x) (hnew : c.has name = false → P ⟨name, [], c.lockNew⟩) :
    ∀ x ∈ (c.create name).configurations, P x := by
  unfold create
  split
  · exact h
  · next hhas =>
    intro x hx
    rcases List.mem_append.1 hx with hx | hx
    · exact h x hx
    · rw [List.mem_singleton.1 hx]
      exact hnew (by simpa using hhas)

/-- What holds after a change is shown of the changed configuration and of the others. -/
theorem forall_update {P Q : Configuration → Prop} {name : ConfigurationName}
    {f : Configuration → Configuration} {keeps : ∀ x, (f x).name = x.name}
    (h : ∀ x ∈ c.configurations, P x) (hchanged : ∀ x, P x → x.name = name → Q (f x))
    (hother : ∀ x, P x → x.name ≠ name → Q x) :
    ∀ x ∈ (c.update name f keeps).configurations, Q x := by
  intro y hy
  obtain ⟨x, hx, rfl⟩ := List.mem_map.1 hy
  by_cases hname : x.name = name
  · rw [if_pos hname]
    exact hchanged x (h x hx) hname
  · rw [if_neg hname]
    exact hother x (h x hx) hname

/-! ## Growth -/

/-- Is everything of the first container in the second one, in the same order and before whatever
is new? -/
structure Grows (c d : Container) : Prop where
  names : c.names <+: d.names
  dependencies : ∀ name, c.dependencies name <+: d.dependencies name

theorem Grows.refl (c : Container) : c.Grows c := ⟨List.prefix_rfl, fun _ => List.prefix_rfl⟩

theorem Grows.trans {e : Container} (h : c.Grows d) (h' : d.Grows e) : c.Grows e :=
  ⟨h.names.trans h'.names, fun name => (h.dependencies name).trans (h'.dependencies name)⟩

theorem grows_register (c : Container) (name : ConfigurationName) (k : Coordinate) :
    c.Grows (c.register name k) where
  names := by
    rw [names_register]
    exact names_prefix_create c name
  dependencies other := by
    rw [dependencies_register]
    split
    · next h =>
      rw [h.1]
      exact List.prefix_append ..
    · exact List.prefix_rfl

theorem grows_unlock (c : Container) (name : ConfigurationName) : c.Grows (c.unlock name) where
  names := by
    rw [names_unlock]
    exact names_prefix_create c name
  dependencies other := by
    rw [dependencies_unlock]

theorem grows_registerAll (c : Container) (name : ConfigurationName) (ks : List Coordinate) :
    c.Grows (c.registerAll name ks) := by
  induction ks generalizing c with
  | nil => exact .refl c
  | cons k ks ih => exact (grows_register c name k).trans (ih (c.register name k))

/-- An installed set is added to what the container holds. -/
theorem grows_install (s : ShadedSet) (c : Container) :
    c.Grows ((c.unlock s.name).registerAll s.name s.dependencies) :=
  (grows_unlock c s.name).trans (grows_registerAll _ s.name s.dependencies)

end Vendoring.Container

namespace Vendoring.Pom

/-! ## Imports -/

/-- A dependency is registered under one of the build's own names. -/
theorem Dependency.isCustom_of_target {d : Dependency} {name : ConfigurationName} {k : Coordinate}
    (h : d.target = .ok (name, k)) : name.isCustom = false := by
  have hscope : d.configuration? = some name := by
    unfold target at h
    split at h
    · cases h
    · split at h
      · cases h
      · next found =>
        cases h
        exact found
  rw [Dependency.configuration?] at hscope
  generalize d.effectiveScope = scope at hscope
  cases scope <;> cases hscope <;> rfl

/-- What holds of a container, and after every registration under one of the build's own names,
holds after an import. -/
theorem importInto_induction {P : Container → Prop} {c : Container} (doc : Document) (hstart : P c)
    (hregister : ∀ (c : Container) (name : ConfigurationName) (k : Coordinate),
      name.isCustom = false → P c → P (c.register name k)) : P (doc.importInto c).1 := by
  have hone : ∀ (state : Container × ImportReport) (d : Dependency),
      P state.1 → P (importOne state d).1 := by
    rintro ⟨c, report⟩ d hc
    unfold importOne
    cases htarget : d.target with
    | error reason => exact hc
    | ok found =>
      obtain ⟨name, k⟩ := found
      simp only
      split
      · exact hc
      · exact hregister c name k (Dependency.isCustom_of_target htarget) hc
  have hall : ∀ (ds : List Dependency) (state : Container × ImportReport),
      P state.1 → P (ds.foldl importOne state).1 := by
    intro ds
    induction ds with
    | nil => exact fun _ hstate => hstate
    | cons d ds ih => exact fun state hstate => ih _ (hone state d hstate)
  exact hall doc.dependencies (c, {}) hstart

/-- An imported document is added to what the container holds. -/
theorem grows_importInto (doc : Document) (c : Container) : c.Grows (doc.importInto c).1 :=
  importInto_induction doc (.refl c) fun _ name k _ h => h.trans (Container.grows_register _ name k)

end Vendoring.Pom
