import GraphPattern.Layout

/-!
# Queries

A finished query: what it declares, what it asks for, and the pattern that it matches.
-/

namespace GraphPattern

/-- A `SELECT` query with the layout that it is written in. -/
structure Query where
  prefixes : Prefixes
  distinct : Bool
  projection : List Variable
  pattern : Group
  layout : Layout := .oneLine

namespace Query

/-- A declaration of a prefix. -/
def renderDeclaration (label ns : String) : String :=
  "PREFIX " ++ label ++ ": <" ++ ns ++ ">"

/-- The query as text. -/
def render (q : Query) : String :=
  String.join (q.prefixes.toList.map fun e => renderDeclaration e.1 e.2 ++ q.layout.lineBreak 0) ++
    renderHead q.distinct q.projection ++ q.pattern.render q.layout 0

end Query

end GraphPattern
