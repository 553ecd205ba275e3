import GraphPattern.Expression
import GraphPattern.Path
import GraphPattern.Prefixes

/-!
# Patterns

A group is one scope between braces: a list of elements in order. Elements hold triples, further
groups, nested queries, computed variables and filters; a group owns all that is below it.
-/

namespace GraphPattern

/-- A triple of a pattern. Every place is filled, an open one by a variable. -/
structure Triple where
  subject : Term
  predicate : Path
  object : Term
deriving DecidableEq, Repr, Inhabited

namespace Triple

/-- The terms, from left to right. -/
def terms (t : Triple) : List Term :=
  t.subject :: (t.predicate.terms ++ [t.object])

/-- The triple with every term replaced. -/
def map (f : Term → Term) (t : Triple) : Triple :=
  ⟨f t.subject, t.predicate.map f, f t.object⟩

/-- The three parts with spaces between them. -/
def render (t : Triple) : String :=
  t.subject.render ++ " " ++ t.predicate.render ++ " " ++ t.object.render

end Triple

/-- One element of a group. -/
inductive Element where
  /-- Triples that follow one another. -/
  | block (triples : List Triple)
  | optional (body : List Element)
  | union (alternatives : List (List Element))
  | minus (body : List Element)
  /-- A nested query. It takes part with the variables of its projection, with all of them where
  the projection is empty. Its prefixes are written at the outermost query only. -/
  | subQuery (distinct : Bool) (projection : List Variable) (body : List Element)
      (prefixes : Prefixes)
  /-- The target takes the value of the expression. -/
  | bind (expression : Expression) (target : Variable)
  | filter (condition : Expression)
deriving Inhabited

namespace Element

/-- The word for the form of an element. -/
def kind : Element → String
  | .block _ => "block"
  | .optional _ => "optional"
  | .union _ => "union"
  | .minus _ => "minus"
  | .subQuery _ _ _ _ => "subquery"
  | .bind _ _ => "bind"
  | .filter _ => "filter"

/-- Whether the element computes the variable of this name. -/
def isBindOf (name : String) : Element → Bool
  | .bind _ target => target.name = name
  | _ => false

/-- Whether the element is a block without triples. -/
def isEmptyBlock : Element → Bool
  | .block [] => true
  | _ => false

/-- The triples of a block, none of any other element. -/
def triples : Element → List Triple
  | .block ts => ts
  | _ => []

end Element

/-- The elements of one scope, in order. -/
abbrev Group := List Element

namespace Group

/-- The group of one block. -/
def ofTriples (ts : List Triple) : Group := [.block ts]

/-- Whether nothing would be written between the braces: there is no element, or there are only
blocks without triples. -/
def isVacant (g : Group) : Bool := g.all Element.isEmptyBlock

/-- The triples of the group's own blocks. -/
def triples (g : Group) : List Triple := g.flatMap Element.triples

/-- The group with a triple at its end, in the last block if that is the last element. -/
def pushTriple (g : Group) (t : Triple) : Group :=
  match g.getLast? with
  | some (.block ts) => g.dropLast ++ [.block (ts ++ [t])]
  | _ => g ++ [.block [t]]

/-- The group with triples at its end, in order. -/
def pushTriples (g : Group) (ts : List Triple) : Group := ts.foldl pushTriple g

/-- The group with an alternative at its end, in the last union if that is the last element. -/
def pushAlternative (g : Group) (alternative : Group) : Group :=
  match g.getLast? with
  | some (.union alternatives) => g.dropLast ++ [.union (alternatives ++ [alternative])]
  | _ => g ++ [.union [alternative]]

end Group

/-- A query on its way into another pattern. -/
structure SubQuery where
  distinct : Bool
  projection : List Variable
  pattern : Group
  prefixes : Prefixes

/-- The element that the query becomes. -/
def SubQuery.toElement (q : SubQuery) : Element :=
  .subQuery q.distinct q.projection q.pattern q.prefixes

end GraphPattern
