import Vendoring.Proofs.Configuration.Growth
import Vendoring.Proofs.Repetitions

/-!
# What registration lists

To register several coordinates under a name is to list them behind those that are there, each where
it comes first and none that is there already (`dependencies_registerAll`).  Other names list what
they listed.  A POM is registered under the build's own names only, so it never reaches a shaded
set (`dependencies_importInto_of_isCustom`), and what a container without such a configuration
records of a shaded set are the coordinates of the set without repetitions
(`dependencies_registerAll_of_eq_nil`).
-/

namespace Vendoring

namespace Container

/-- Coordinates that are registered together come behind those that were listed before, each in the
place where it is named first. -/
theorem dependencies_registerAll (c : Container) (name : ConfigurationName)
    (ks : List Coordinate) :
    (c.registerAll name ks).dependencies name =
      c.dependencies name ++ (ks.filter (· ∉ c.dependencies name)).eraseDups := by
  have hstep : ∀ (c : Container) (k : Coordinate),
      (if (c.dependencies name).contains k then c.dependencies name
        else c.dependencies name ++ [k]) = (c.register name k).dependencies name := by
    intro c k
    rw [dependencies_register]
    by_cases hk : k ∈ c.dependencies name <;> simp [hk]
  exact (List.foldl_hom _ hstep).symm.trans (foldl_append_new _ _)

/-- Where nothing was listed before, each coordinate is listed in the place where it is named
first. -/
theorem dependencies_registerAll_of_eq_nil {c : Container} {name : ConfigurationName}
    (ks : List Coordinate) (hnew : c.dependencies name = []) :
    (c.registerAll name ks).dependencies name = ks.eraseDups := by
  rw [dependencies_registerAll, hnew]
  simp

end Container

/-- An import lists nothing under a name of one's own. -/
theorem Pom.dependencies_importInto_of_isCustom (doc : Document) (c : Container)
    {name : ConfigurationName} (h : name.isCustom = true) :
    (doc.importInto c).1.dependencies name = c.dependencies name := by
  refine importInto_induction (P := fun d => d.dependencies name = c.dependencies name) doc rfl ?_
  intro d other k hother hd
  have hne : name ≠ other := by
    rintro rfl
    rw [h] at hother
    cases hother
  rw [Container.dependencies_register, if_neg fun hk => hne hk.1, hd]

/-- A set with a name that is not reserved has a name of its own. -/
theorem ShadedSet.isCustom_name {s : ShadedSet} (h : s.isReserved = false) :
    s.name.isCustom = true := by
  have hread := isCustom_ofText h
  cases hname : s.name with
  | custom text => rfl
  | _ =>
    rw [hname] at hread
    exact absurd hread (by decide)

end Vendoring
