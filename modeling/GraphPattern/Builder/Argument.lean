import GraphPattern.Pattern
import GraphPattern.Shorthand

/-!
# Arguments of builders

A builder takes each argument either as shorthand, which it resolves against its prefixes, or as a
value. Patterns come as a triple of such arguments, as a group with the prefixes of its source, or
as a query.
-/

namespace GraphPattern

/-- An argument: shorthand for an `α`, or an `α`. -/
inductive Arg (α : Type) where
  | text (shorthand : String)
  | value (a : α)
deriving Repr

namespace Arg

/-- The value of an argument, where `resolve` reads shorthand. -/
def get {α : Type} (resolve : String → Except ParseError α) : Arg α → Except Error α
  | .text shorthand => (resolve shorthand).mapError .parse
  | .value a => .ok a

/-- An argument in subject or object position. -/
def term (prefixes : Prefixes) (a : Arg Term) : Except Error Term :=
  a.get (Shorthand.resolveTerm prefixes)

/-- An argument in predicate position. -/
def path (prefixes : Prefixes) (a : Arg Path) : Except Error Path :=
  a.get (Shorthand.resolvePath prefixes)

/-- An argument that is tested or computed. -/
def expression (prefixes : Prefixes) (a : Arg Expression) : Except Error Expression :=
  a.get (Shorthand.resolveExpression prefixes)

/-- An argument that names a variable. A value that the variable carries is left behind. -/
def var : Arg Term → Except Error Variable
  | .text shorthand => (Shorthand.resolveVariable shorthand).mapError .parse
  | .value t =>
    match t.asVariable with
    | some v => .ok v.unbound
    | none => .error (.structural (.notAVariable t.render))

end Arg

/-- The triple of three arguments, which are resolved from left to right. -/
def Triple.ofArgs (prefixes : Prefixes) (subject : Arg Term) (predicate : Arg Path)
    (object : Arg Term) : Except Error Triple := do
  let s ← subject.term prefixes
  let p ← predicate.path prefixes
  let o ← object.term prefixes
  .ok ⟨s, p, o⟩

/-- An argument that is a pattern. -/
inductive PatternArg where
  | triple (subject : Arg Term) (predicate : Arg Path) (object : Arg Term)
  | group (group : Group) (prefixes : Prefixes)
  | query (query : SubQuery)

namespace PatternArg

/-- The group of a pattern and the prefixes of its source, where the projection of a query does not
matter. -/
def body (prefixes : Prefixes) : PatternArg → Except Error (Group × Prefixes)
  | .triple s p o => do
    let t ← Triple.ofArgs prefixes s p o
    .ok (.ofTriples [t], .empty)
  | .group g source => .ok (g, source)
  | .query q => .ok (q.pattern, q.prefixes)

/-- The group of a pattern and the prefixes of its source, where a query keeps its projection, as a
nested query if it has one. -/
def alternative (prefixes : Prefixes) : PatternArg → Except Error (Group × Prefixes)
  | .query q => .ok (if q.projection.isEmpty then q.pattern else [q.toElement], q.prefixes)
  | other => other.body prefixes

end PatternArg

end GraphPattern
