/-!
# Changes in place

A change of a state gives a value or fails, and either way there is the state as it leaves it.
Nothing is undone: what was done before the change failed stays done.  So whether a failure leaves
the state as it was depends on the order of what is done, and has to be proved of each change.
-/

namespace Vendoring.InPlace

variable {ε ε' σ τ α : Type}

/-- A change of a part of a state, as a change of the state. -/
def onPart (get : τ → σ) (set : σ → τ → τ) (x : EStateM ε σ α) : EStateM ε τ α := fun t =>
  match x.run (get t) with
  | .ok a s => .ok a (set s t)
  | .error e s => .error e (set s t)

/-- A change whose value is not looked at, with its faults under other names. -/
def relabel (f : ε → ε') (x : EStateM ε σ α) : EStateM ε' σ Unit := fun s =>
  match x.run s with
  | .ok _ s => .ok () s
  | .error e s => .error (f e) s

/-- The state as a change leaves it, also where the change fails. -/
def left (x : EStateM ε σ α) (s : σ) : σ :=
  match x.run s with
  | .ok _ s => s
  | .error _ s => s

/-- The state behind a change and the value that the change gives, or the fault alone. -/
def settled (x : EStateM ε σ α) (s : σ) : Except ε (σ × α) :=
  match x.run s with
  | .ok a s => .ok (s, a)
  | .error e _ => .error e

end Vendoring.InPlace
