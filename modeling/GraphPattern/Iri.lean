import GraphPattern.Vocabulary

/-!
# IRIs
-/

namespace GraphPattern

/-- An IRI, absolute or relative, without its angle brackets. -/
structure Iri where
  text : String
deriving DecidableEq, Repr, Inhabited

/-- The IRI between angle brackets. -/
def Iri.render (iri : Iri) : String :=
  "<" ++ iri.text ++ ">"

end GraphPattern
