import Vendoring.Packaging
import Vendoring.Proofs.Stages

/-!
# The stages of packaging

Packaging checks the rules, resolves the dependencies one after the other, and plans the
publication; each of these stages may fail, and what is put together in between cannot.  So
packaging succeeds exactly if the three stages do (`run_eq_ok_iff`).  With an index, resolution
fails at the first coordinate that the index lacks and at no other (`mapM_resolver`).
-/

namespace Vendoring

/-! ## Resolution -/

namespace ArtifactIndex

/-- Is there no artifact with the coordinate? -/
def lacks (index : ArtifactIndex) (k : Coordinate) : Bool := (index.find? k).isNone

/-- **Coordinates are resolved with an index if it has all of them.**  If not, the first one that it
lacks is named. -/
theorem mapM_resolver (index : ArtifactIndex) (ks : List Coordinate) :
    ks.mapM index.resolver =
      match ks.find? index.lacks with
      | some k => .error (.unresolved k.text)
      | none => .ok (ks.map fun k => ⟨k, (index.find? k).getD []⟩) := by
  induction ks with
  | nil => rfl
  | cons k ks ih =>
    rw [List.mapM_cons, ih, List.find?_cons]
    cases hk : index.find? k with
    | none =>
      have hlacks : index.lacks k = true := by simp [lacks, hk]
      rw [hlacks, resolver, hk]
      rfl
    | some entries =>
      have hlacks : index.lacks k = false := by simp [lacks, hk]
      rw [hlacks, resolver, hk]
      simp only [List.map_cons, hk, Option.getD_some]
      cases ks.find? index.lacks <;> rfl

end ArtifactIndex

/-! ## Packaging -/

namespace Packaging

variable {resolve : Resolver} {input : Input} {outcome : Outcome}

/-- The publication that is planned for a module. -/
def planOf (input : Input) : Except VariantConflict PublicationPlan :=
  planPublication input.variants input.plain (shadedArtifact input.plain)
    (SigningStrategy.resolve input.signing) input.classifiers

/-- What comes of a module whose dependencies are resolved and whose publication is planned. -/
def outcomeOf (input : Input) (resolved : List ResolvedArtifact) (plan : PublicationPlan) :
    Outcome where
  entries := (assemble input resolved).1.entries
  removedByMinimize := (assemble input resolved).2.1
  relocated := (assemble input resolved).2.2
  plan := plan

/-- Packaging in its stages. -/
theorem run_eq_stages (resolve : Resolver) (input : Input) :
    run resolve input = (do
      checkRules input.relocations
      let resolved ← input.shaded.dependencies.mapM resolve
      let plan ← (planOf input).mapError .conflict
      return outcomeOf input resolved plan) := rfl

/-- Packaging succeeds if all its stages do. -/
theorem run_eq_ok_iff :
    run resolve input = .ok outcome ↔
      checkRules input.relocations = .ok () ∧
      ∃ resolved, input.shaded.dependencies.mapM resolve = .ok resolved ∧
      ∃ plan, planOf input = .ok plan ∧ outcome = outcomeOf input resolved plan := by
  rw [run_eq_stages]
  simp only [bind_eq_ok_iff, mapError_eq_ok_iff]
  constructor
  · rintro ⟨⟨⟩, hrules, resolved, hresolved, plan, hplan, h⟩
    exact ⟨hrules, resolved, hresolved, plan, hplan, (Except.ok.inj h).symm⟩
  · rintro ⟨hrules, resolved, hresolved, plan, hplan, rfl⟩
    exact ⟨(), hrules, resolved, hresolved, plan, hplan, rfl⟩

end Packaging

end Vendoring
