import Vendoring.Archive.Basic

/-!
# Minimizing an archive

Classes of dependencies that nothing needs are left out.  Needed are the project's own classes,
those the user wants to keep, the providers of services, whatever an entry that is no class refers
to, and all that needed classes refer to.
-/

namespace Vendoring

/-- A name with one separator in the place of another. -/
def respell (old new : Char) (name : String) : String :=
  String.ofList (name.toList.map fun c => if c = old then new else c)

namespace Archive

/-- Is the class covered by a dotted name, that of itself, of a package or of an outer class? -/
def matchesKeep (keep : List String) (className : String) : Bool :=
  let dotted := respell '/' '.' className
  keep.any fun front =>
    match ArchiveEntry.after? front dotted with
    | none => false
    | some rest =>
      match rest.toList with
      | [] => true
      | c :: _ => c = '.' || c = '$'

/-- The names that an entry makes needed by being there. -/
def rootsOf (keep : List String) (m : MergedEntry) : List String :=
  match m.entry.className? with
  | some name => if m.isOwn || matchesKeep keep name then [name] else []
  | none =>
    if m.entry.serviceName?.isSome then m.entry.textLines.map (respell '.' '/')
    else m.entry.references

/-- The names that are needed whatever refers to them. -/
def roots (keep : List String) (a : Archive) : List String := a.rows.flatMap (rootsOf keep)

/-- Is the entry the class of the given name? -/
def isClass (name : String) (m : MergedEntry) : Bool := m.entry.className? = some name

/-- The entries that are not the class of the given name. -/
def without (name : String) (ms : List MergedEntry) : List MergedEntry :=
  ms.filter (!isClass name ·)

/-- An upper bound of the names that classes bring along: each its references, and one more for the
class itself. -/
def weight (ms : List MergedEntry) : Nat :=
  ms.foldr (fun m n => m.entry.references.length + 1 + n) 0

theorem weight_without_le (name : String) (ms : List MergedEntry) :
    weight (without name ms) ≤ weight ms := by
  induction ms with
  | nil => simp [without]
  | cons a ms ih =>
    simp only [without, weight, List.filter_cons] at ih ⊢
    split <;> simp only [List.foldr_cons] <;> omega

/-- Without a class, its references are no longer counted. -/
theorem weight_without_lt {name : String} {ms : List MergedEntry} {m : MergedEntry}
    (h : ms.find? (isClass name) = some m) :
    m.entry.references.length + weight (without name ms) < weight ms := by
  induction ms with
  | nil => simp at h
  | cons a ms ih =>
    rw [List.find?_cons] at h
    split at h
    · next ha =>
      obtain rfl : a = m := by simpa using h
      have := weight_without_le name ms
      simp only [without, weight, List.filter_cons, ha] at this ⊢
      simp only [Bool.not_true, List.foldr_cons]
      simp only [Bool.false_eq_true, if_false]
      omega
    · next ha =>
      have := ih h
      simp only [without, weight, List.filter_cons, ha] at this ⊢
      simp only [Bool.not_false, if_true, List.foldr_cons]
      omega

/-- Takes the classes of the needed names out of `idle`, and then those that they refer to; what
is left is needed by nothing. -/
def sweep (idle : List MergedEntry) : (needed : List String) → List MergedEntry
  | [] => idle
  | name :: needed =>
    match h : idle.find? (isClass name) with
    | none => sweep idle needed
    | some m =>
      have := weight_without_lt h
      sweep (without name idle) (needed ++ m.entry.references)
  termination_by needed => weight idle + needed.length
  decreasing_by
    · simp
    · simp only [List.length_append, List.length_cons]
      omega

/-- The classes that nothing needs. -/
def unneeded (keep : List String) (a : Archive) : List MergedEntry :=
  sweep (a.rows.filter (·.entry.className?.isSome)) (roots keep a)

/-- The archive without the classes that nothing needs, and their number. -/
def minimize (keep : List String) (a : Archive) : Archive × Nat :=
  let dropped := (unneeded keep a).map MergedEntry.path
  let kept := a.filter (!dropped.contains ·.path)
  (kept, a.size - kept.size)

end Archive

end Vendoring
