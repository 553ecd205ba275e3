import GraphPattern.Term

/-!
# Predicate paths

A path is one predicate or a sequence of steps. `sequence?` puts paths end to end, so that a written
path is a predicate or a flat sequence of at least two predicates.
-/

namespace GraphPattern

/-- What stands in predicate position. -/
inductive Path where
  | predicate (term : Term)
  | sequence (steps : List Path)
deriving Repr, Inhabited

namespace Path

/-! ## Equality -/

mutual

/-- Whether two paths are equal. -/
def beq : Path → Path → Bool
  | .predicate s, .predicate t => s = t
  | .sequence ps, .sequence qs => beqSteps ps qs
  | _, _ => false

/-- Whether two lists of steps are equal. -/
def beqSteps : List Path → List Path → Bool
  | [], [] => true
  | p :: ps, q :: qs => beq p q && beqSteps ps qs
  | _, _ => false

end

mutual

theorem beq_iff_eq : ∀ p q : Path, beq p q = true ↔ p = q
  | .predicate s, .predicate t => by simp [beq]
  | .predicate _, .sequence _ => by simp [beq]
  | .sequence _, .predicate _ => by simp [beq]
  | .sequence ps, .sequence qs => by simp [beq, beqSteps_iff_eq ps qs]

theorem beqSteps_iff_eq : ∀ ps qs : List Path, beqSteps ps qs = true ↔ ps = qs
  | [], [] => by simp [beqSteps]
  | [], _ :: _ => by simp [beqSteps]
  | _ :: _, [] => by simp [beqSteps]
  | p :: ps, q :: qs => by simp [beqSteps, beq_iff_eq p q, beqSteps_iff_eq ps qs]

end

instance : DecidableEq Path := fun p q => decidable_of_iff _ (beq_iff_eq p q)

/-! ## Construction -/

/-- The steps that a path adds to a sequence. -/
def steps : Path → List Path
  | .predicate t => [.predicate t]
  | .sequence ps => ps

/-- The paths one after the other: a sequence among them gives its steps, a single step stands for
itself, and without any step there is no path. -/
def sequence? (ps : List Path) : Option Path :=
  match ps.flatMap steps with
  | [] => none
  | [p] => some p
  | qs => some (.sequence qs)

/-- The term of a path that is one predicate. -/
def predicate? : Path → Option Term
  | .predicate t => some t
  | .sequence _ => none

/-! ## The terms of a path -/

mutual

/-- The terms of the steps, from left to right. -/
def terms : Path → List Term
  | .predicate t => [t]
  | .sequence ps => termsOfSteps ps

/-- The terms of a list of steps. -/
def termsOfSteps : List Path → List Term
  | [] => []
  | p :: ps => terms p ++ termsOfSteps ps

end

mutual

/-- The path with every term replaced. -/
def map (f : Term → Term) : Path → Path
  | .predicate t => .predicate (f t)
  | .sequence ps => .sequence (mapSteps f ps)

/-- The steps with every term replaced. -/
def mapSteps (f : Term → Term) : List Path → List Path
  | [] => []
  | p :: ps => map f p :: mapSteps f ps

end

/-! ## Text -/

mutual

/-- The steps with slashes between them. -/
def render : Path → String
  | .predicate t => t.render
  | .sequence ps => renderSteps ps

/-- A list of steps with slashes between them. -/
def renderSteps : List Path → String
  | [] => ""
  | [p] => render p
  | p :: q :: ps => render p ++ "/" ++ renderSteps (q :: ps)

end

end Path

end GraphPattern
