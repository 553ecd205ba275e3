import GraphPattern.Labels

/-!
# Collections

A list of terms as triples: one blank node for each member, which has the member as its `rdf:first`
and the next node as its `rdf:rest`; the last node has the empty list there.
-/

namespace GraphPattern

/-- The first node of a list, and the triples that describe it. -/
structure Collection where
  head : Term
  triples : List Triple
deriving DecidableEq, Repr

namespace Collection

/-- The triples of a list whose nodes are given with their members. -/
def link : List (BlankNode × Term) → List Triple
  | [] => []
  | (node, value) :: rest =>
    let next := match rest with
      | [] => Term.iri ⟨Vocabulary.rdfNil⟩
      | (n, _) :: _ => .blank n
    ⟨.blank node, .predicate (.iri ⟨Vocabulary.rdfFirst⟩), value⟩ ::
      ⟨.blank node, .predicate (.iri ⟨Vocabulary.rdfRest⟩), next⟩ :: link rest

/-- A new node for each of the terms. -/
def pairUp (a : Allocator) : List Term → LabelM (List (BlankNode × Term))
  | [] => pure []
  | t :: ts => do
    let node ← a.allocate
    let rest ← pairUp a ts
    pure ((node, t) :: rest)

/-- The list of the terms. There is no node to stand for a list without members. -/
def ofTerms (a : Allocator) (terms : List Term) : LabelM Collection := do
  match ← pairUp a terms with
  | [] => throw .emptyList
  | (node, value) :: rest => pure ⟨.blank node, link ((node, value) :: rest)⟩

end Collection

end GraphPattern
