import Vendoring.Packaging
import Vendoring.Proofs.Configuration.Operations
import Vendoring.Proofs.Configuration.Registered

/-!
# Installing a shaded set

A set is installed by changes of one configuration.  So all others stay as they are, in their order
(`others`), whether they come before it or behind it.  The configuration is taken out of dependency
locking, and nothing that is done to a container puts one in again (`isUnlocked_perform`), so it
stays out for good.

The main result is `install_reads_back`.
-/

namespace Vendoring

namespace Container

variable {c : Container} {name : ConfigurationName}

/-! ## The other configurations -/

/-- The configurations of all names but one, oldest first. -/
def others (name : ConfigurationName) (c : Container) : List Configuration :=
  c.configurations.filter (·.name ≠ name)

theorem others_create (c : Container) (name : ConfigurationName) :
    (c.create name).others name = c.others name := by
  unfold create
  split
  · rfl
  · simp [others]

/-- A change of one configuration does not reach the others. -/
theorem others_update (c : Container) (name : ConfigurationName)
    (f : Configuration → Configuration) (keeps : ∀ x, (f x).name = x.name) :
    (c.update name f keeps).others name = c.others name := by
  have hname : ∀ x : Configuration, (if x.name = name then f x else x).name = x.name := by
    intro x
    split
    · exact keeps x
    · rfl
  have hkept : ∀ x ∈ c.others name, (if x.name = name then f x else x) = x := by
    intro x hx
    exact if_neg (of_decide_eq_true (List.mem_filter.1 hx).2)
  calc (c.update name f keeps).others name
      = (c.others name).map fun x => if x.name = name then f x else x := by
        rw [others, update, List.filter_map, others]
        congr 1
        refine List.filter_congr fun x _ => ?_
        simp only [Function.comp, hname]
    _ = c.others name := (List.map_congr_left hkept).trans (List.map_id _)

theorem others_register (c : Container) (name : ConfigurationName) (k : Coordinate) :
    (c.register name k).others name = c.others name := by
  rw [register, others_update, others_create]

theorem others_unlock (c : Container) (name : ConfigurationName) :
    (c.unlock name).others name = c.others name := by
  rw [unlock, others_update, others_create]

theorem others_registerAll (c : Container) (name : ConfigurationName) (ks : List Coordinate) :
    (c.registerAll name ks).others name = c.others name := by
  induction ks generalizing c with
  | nil => rfl
  | cons k ks ih =>
    have hfirst : c.registerAll name (k :: ks) = (c.register name k).registerAll name ks := rfl
    rw [hfirst, ih, others_register]

/-! ## Unlocked configurations -/

/-- Is there a configuration of the name that takes no part in dependency locking? -/
def IsUnlocked (c : Container) (name : ConfigurationName) : Prop :=
  (c.get? name).map Configuration.locked = some false

theorem isUnlocked_create (h : c.IsUnlocked name) (other : ConfigurationName) :
    (c.create other).IsUnlocked name := by
  obtain ⟨x, hx, hlocked⟩ := Option.map_eq_some_iff.1 h
  rw [IsUnlocked, get?_create]
  by_cases hname : name = other
  · rw [if_pos hname, ← hname, hx, Option.getD_some, Option.map_some, hlocked]
  · rw [if_neg hname, hx, Option.map_some, hlocked]

/-- A change that locks nothing leaves a configuration unlocked. -/
theorem isUnlocked_update (h : c.IsUnlocked name) (other : ConfigurationName)
    (f : Configuration → Configuration) (keeps : ∀ x, (f x).name = x.name)
    (hf : ∀ x, x.locked = false → (f x).locked = false) :
    (c.update other f keeps).IsUnlocked name := by
  obtain ⟨x, hx, hlocked⟩ := Option.map_eq_some_iff.1 h
  rw [IsUnlocked, get?_update]
  by_cases hname : name = other
  · rw [if_pos hname, ← hname, hx, Option.map_some, Option.map_some, hf x hlocked]
  · rw [if_neg hname, hx, Option.map_some, hlocked]

theorem isUnlocked_register (h : c.IsUnlocked name) (other : ConfigurationName) (k : Coordinate) :
    (c.register other k).IsUnlocked name := by
  refine isUnlocked_update (isUnlocked_create h other) other _ _ fun x hx => ?_
  split
  · exact hx
  · exact hx

theorem isUnlocked_registerAll (h : c.IsUnlocked name) (other : ConfigurationName)
    (ks : List Coordinate) : (c.registerAll other ks).IsUnlocked name := by
  induction ks generalizing c with
  | nil => exact h
  | cons k ks ih => exact ih (isUnlocked_register h other k)

theorem isUnlocked_unlock (h : c.IsUnlocked name) (other : ConfigurationName) :
    (c.unlock other).IsUnlocked name :=
  isUnlocked_update (isUnlocked_create h other) other _ _ fun _ _ => rfl

/-- What is unlocked is unlocked then, whether it was there or not. -/
theorem isUnlocked_unlock_self (c : Container) (name : ConfigurationName) :
    (c.unlock name).IsUnlocked name := by
  rw [IsUnlocked, unlock, get?_update, if_pos rfl, get?_create, if_pos rfl]
  rfl

/-- **No operation locks a configuration.** -/
theorem isUnlocked_perform (h : c.IsUnlocked name) (operation : Operation) :
    (c.perform operation).IsUnlocked name := by
  cases operation with
  | create other => exact isUnlocked_create h other
  | register other k => exact isUnlocked_register h other k
  | unlock other => exact isUnlocked_unlock h other
  | importDocument doc =>
    exact Pom.importInto_induction (P := (IsUnlocked · name)) doc h
      fun _ other k _ hc => isUnlocked_register hc other k
  | install s =>
    rw [perform_install]
    split
    · exact h
    · exact isUnlocked_registerAll (isUnlocked_unlock h s.name) s.name s.dependencies

/-- What is unlocked stays unlocked, whatever is done later. -/
theorem isUnlocked_run (h : c.IsUnlocked name) (operations : List Operation) :
    (c.run operations).IsUnlocked name := by
  induction operations generalizing c with
  | nil => exact h
  | cons operation operations ih => exact ih (isUnlocked_perform h operation)

end Container

namespace ConfigurationName

/-! ## Reserved names -/

/-- The texts of the build's own names. -/
def ownTexts : List String := ["implementation", "testImplementation", "runtime", "compileOnly"]

/-- A text is read as a name of one's own unless it is the text of one of the build's names. -/
theorem isCustom_ofText_iff (text : String) :
    (ofText text).isCustom = true ↔ text ∉ ownTexts := by
  unfold ofText
  by_cases h₁ : text = "implementation"
  · simp [h₁, ownTexts, isCustom]
  by_cases h₂ : text = "testImplementation"
  · simp [h₂, ownTexts, isCustom]
  by_cases h₃ : text = "runtime"
  · simp [h₃, ownTexts, isCustom]
  by_cases h₄ : text = "compileOnly"
  · simp [h₄, ownTexts, isCustom]
  simp [h₁, h₂, h₃, h₄, ownTexts, isCustom]

end ConfigurationName

namespace ShadedSet

variable {s : ShadedSet} {c d : Container}

/-- A name is reserved if it is blank or written like one of the build's names. -/
theorem isReserved_iff :
    s.isReserved = true ↔ (∀ ch ∈ s.name.text.toList, Text.isBlank ch = true) ∨
      s.name.text ∈ ConfigurationName.ownTexts := by
  rw [isReserved, Bool.or_eq_true, Bool.not_eq_true', ← Bool.not_eq_true,
    ConfigurationName.isCustom_ofText_iff, not_not, Text.isBlankText, List.all_eq_true]

/-! ## Installing -/

theorem run_installInPlace_eq_ok_iff :
    s.installInPlace.run c = .ok () d ↔
      s.isReserved = false ∧ (c.unlock s.name).registerAll s.name s.dependencies = d := by
  rw [run_installInPlace]
  cases s.isReserved <;> simp

/-- A set is refused for its name, before anything is done to the container. -/
theorem run_installInPlace_eq_error_iff {e : Packaging.Fault} :
    s.installInPlace.run c = .error e d ↔
      s.isReserved = true ∧ .reservedName s.name.text = e ∧ c = d := by
  rw [run_installInPlace]
  cases s.isReserved <;> simp

/-- **Installing a set and reading it back.**  A set is refused exactly if its name is blank or is
spelt like one of the build's own, and then the container is left as it was.  Otherwise its
configuration lists what it listed and behind it the coordinates of the set that are new, each where
it is named first.  All other configurations are the same and in the same order, and the
configuration takes no part in dependency locking, then and whatever is done later. -/
theorem install_reads_back (s : ShadedSet) (c : Container) :
    ((∃ e d, s.installInPlace.run c = .error e d) ↔
      (∀ ch ∈ s.name.text.toList, Text.isBlank ch = true) ∨
        s.name.text ∈ ConfigurationName.ownTexts) ∧
    (∀ e d, s.installInPlace.run c = .error e d → d = c) ∧
    ∀ d, s.installInPlace.run c = .ok () d →
      ofContainer d s.name =
        ⟨s.name, c.dependencies s.name ++
          (s.dependencies.filter (· ∉ c.dependencies s.name)).eraseDups⟩ ∧
      d.others s.name = c.others s.name ∧
      ∀ later, (d.run later).IsUnlocked s.name := by
  refine ⟨?_, ?_, ?_⟩
  · simp only [run_installInPlace_eq_error_iff, exists_and_left, exists_eq', and_true,
      isReserved_iff]
  · intro e d he
    obtain ⟨-, -, hd⟩ := run_installInPlace_eq_error_iff.1 he
    exact hd.symm
  · intro d hd
    obtain ⟨-, rfl⟩ := run_installInPlace_eq_ok_iff.1 hd
    refine ⟨?_, ?_, fun later => ?_⟩
    · rw [ofContainer, Container.dependencies_registerAll, Container.dependencies_unlock]
    · rw [Container.others_registerAll, Container.others_unlock]
    · have hunlocked := Container.isUnlocked_unlock_self c s.name
      exact Container.isUnlocked_run
        (Container.isUnlocked_registerAll hunlocked s.name s.dependencies) later

/-- A YAML library, in the version that is vendored. -/
def yaml : Coordinate := ⟨"org.yaml", "snakeyaml", some "1.28"⟩

/-- A logging interface. -/
def logging : Coordinate := ⟨"org.slf4j", "slf4j-api", none⟩

/-- A set that names the library twice, and what another configuration lists as well. -/
def shade : ShadedSet := ⟨.custom "shade", [yaml, logging, yaml]⟩

/-- A container with locking in which something is listed under the name of the set. -/
def listed : Container :=
  (Container.empty true).run
    [.register (.custom "shade") logging, .register .implementation logging]

/-- The set is read back behind what was listed and stays unlocked, and the build's own configuration
is as before. -/
theorem install_reads_back_of_listed :
    ∃ d, shade.installInPlace.run listed = .ok () d ∧
      ofContainer d shade.name = ⟨shade.name, [logging, yaml]⟩ ∧
      d.others shade.name = [⟨.implementation, [logging], true⟩] ∧
      (d.run [.create shade.name, .register shade.name logging]).IsUnlocked shade.name := by
  obtain ⟨-, -, hinstalled⟩ := install_reads_back shade listed
  obtain ⟨d, hd⟩ : ∃ d, shade.installInPlace.run listed = .ok () d :=
    ⟨_, run_installInPlace_eq_ok_iff.2 ⟨by decide, rfl⟩⟩
  obtain ⟨hread, hothers, hunlocked⟩ := hinstalled d hd
  exact ⟨d, hd, hread.trans (by decide), hothers.trans (by decide), hunlocked _⟩

end ShadedSet

end Vendoring
