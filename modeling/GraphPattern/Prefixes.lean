import GraphPattern.Iri
import GraphPattern.OrderedMap

/-!
# Prefixes

Short names for namespaces, in the order of their declaration. A declaration that is made here wins
over one that is merged in.
-/

namespace GraphPattern

/-- The namespaces of prefix labels, which are kept without their colon. -/
structure Prefixes where
  map : OrderedMap String
deriving DecidableEq, Inhabited

namespace Prefixes

/-- No declarations. -/
def empty : Prefixes := ⟨.empty⟩

/-- The declarations in order, each a label with its namespace. -/
def toList (p : Prefixes) : List (String × String) := p.map.entries

/-- The namespace of a label. -/
def namespace? (p : Prefixes) (label : String) : Option String := p.map.lookup label

/-- The label without one colon at its end. -/
def stripColon (text : String) : String :=
  match text.toList.reverse with
  | ':' :: label => String.ofList label.reverse
  | _ => text

/-- Declares a label, which may be written with its colon. The first part is the namespace that the
label had before. -/
def declare (p : Prefixes) (label ns : String) : Option String × Prefixes :=
  (p.namespace? (stripColon label), ⟨p.map.insert (stripColon label) ns⟩)

/-- Declares all pairs, one after the other. -/
def ofList (pairs : List (String × String)) : Prefixes :=
  pairs.foldl (fun p e => (p.declare e.1 e.2).2) empty

/-- Drops the declaration of a label. The first part is the namespace that it had. -/
def remove (p : Prefixes) (label : String) : Option String × Prefixes :=
  (p.namespace? label, ⟨p.map.erase label⟩)

/-- The IRI that a prefixed name stands for. -/
def expand (p : Prefixes) (label name : String) : Option Iri :=
  (p.namespace? label).map fun ns => ⟨ns ++ name⟩

/-- Takes over a declaration. One whose label is declared already changes nothing; if the namespaces
differ, the label is put to those of the other declarations of which that holds. -/
def absorb (state : List String × Prefixes) (e : String × String) : List String × Prefixes :=
  match state.2.namespace? e.1 with
  | some ns => (if ns = e.2 then state.1 else state.1 ++ [e.1], state.2)
  | none => (state.1, ⟨state.2.map.insert e.1 e.2⟩)

/-- Takes over the declarations of `q`, one after the other. -/
def absorbAll (p q : Prefixes) : List String × Prefixes := q.toList.foldl absorb ([], p)

/-- The declarations of `p`, and after them those of `q` whose labels `p` does not declare. -/
def merge (p q : Prefixes) : Prefixes := (p.absorbAll q).2

/-- The labels of `q` that `p` declares with another namespace. -/
def conflicts (p q : Prefixes) : List String := (p.absorbAll q).1

/-- Whether both declare the same, in whatever order. -/
def sameDeclarations (p q : Prefixes) : Bool := p.map.sameEntries q.map

end Prefixes

end GraphPattern
