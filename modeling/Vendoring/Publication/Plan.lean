import Vendoring.Publication.Artifact
import Vendoring.Text.Blank

/-!
# Publication plans

A module with a shaded artifact publishes one of its two artifacts as the default one.  If it is
signed, the plain artifact stays the default and the shaded one gets a classifier; if not, the
shaded artifact becomes the default and the plain one is withdrawn from the variants.
-/

namespace Vendoring

/-- The key that artifacts are signed with. -/
structure SigningCredential where
  keyId : String
  deriving DecidableEq

/-- Which of the two artifacts is the default one. -/
inductive SigningStrategy
  /-- The plain one; the shaded one is signed. -/
  | signShaded
  /-- The shaded one. -/
  | signDefault
  deriving DecidableEq

namespace SigningStrategy

/-- The written form of a strategy. -/
def text : SigningStrategy → String
  | signShaded => "signShaded"
  | signDefault => "signDefault"

/-- All strategies in their customary order. -/
def all : List SigningStrategy := [signShaded, signDefault]

/-- The strategy for a build with the given credential, of which a blank one counts as none. -/
def resolve (credential : Option SigningCredential) : SigningStrategy :=
  match credential with
  | some c => if Text.isBlankText c.keyId then signDefault else signShaded
  | none => signDefault

end SigningStrategy

/-- The classifiers of the artifacts that are not the default one. -/
structure ClassifierPolicy where
  shaded : String := "all"
  thin : String := "thin"
  deriving DecidableEq

/-- What is published. -/
structure PublicationPlan where
  strategy : SigningStrategy
  plain : Artifact
  shaded : Artifact
  variants : List Variant
  /-- The artifact that is to be signed. -/
  signingInput : Option Artifact
  deriving DecidableEq

namespace PublicationPlan

/-- The artifact that consumers get without asking for another. -/
def defaultArtifact (p : PublicationPlan) : Artifact :=
  match p.strategy with
  | .signShaded => p.plain
  | .signDefault => p.shaded

end PublicationPlan

/-- A variant that offers no default artifact, or several. -/
structure VariantConflict where
  variant : String
  /-- The number of default artifacts. -/
  count : Nat
  deriving DecidableEq

namespace Variant

/-- What becomes of an artifact of a variant: shaded ones are dropped, plain ones become the plain
artifact of the plan or, where that is not the default, go if they were. -/
def substitute (strategy : SigningStrategy) (plain a : Artifact) : Option Artifact :=
  match a.kind, strategy with
  | .shaded, _ => none
  | .plain, .signShaded => some plain
  | .plain, .signDefault => if a.isDefault then none else some a
  | .auxiliary, _ => some a

/-- The variant that offers the artifacts of a plan. -/
def offering (strategy : SigningStrategy) (plain shaded : Artifact) (v : Variant) : Variant :=
  let kept := v.artifacts.filterMap (substitute strategy plain)
  { v with artifacts := if kept.contains shaded then kept else kept ++ [shaded] }

/-- The first variant that does not offer exactly one default artifact. -/
def conflict? (vs : List Variant) : Option VariantConflict :=
  (vs.find? (·.defaults.length ≠ 1)).map fun v => ⟨v.name, v.defaults.length⟩

end Variant

/-- Plans the publication of a plain and a shaded artifact in the given variants. -/
def planPublication (variants : List Variant) (plain shaded : Artifact)
    (strategy : SigningStrategy) (classifiers : ClassifierPolicy) :
    Except VariantConflict PublicationPlan :=
  let (plain, shaded) :=
    match strategy with
    | .signShaded =>
      (plain.withClassifier .default, shaded.withClassifier (.named classifiers.shaded))
    | .signDefault =>
      (plain.withClassifier (.named classifiers.thin), shaded.withClassifier .default)
  let variants := variants.map (Variant.offering strategy plain shaded)
  match Variant.conflict? variants with
  | some conflict => .error conflict
  | none =>
    .ok
      { strategy, plain, shaded, variants
        signingInput :=
          match strategy with
          | .signShaded => some shaded
          | .signDefault => none }

end Vendoring
