import GraphPattern.Literal

/-!
# Terms

A term stands in subject or object position of a triple, as a step of a path or as a leaf of an
expression. A variable is known by its name alone; each place where it stands may carry the term
that it is resolved to, and a place that carries none is free. The name stays, so a place can be
resolved anew or freed again.
-/

namespace GraphPattern

/-- A blank node, by its label without `_:`. -/
structure BlankNode where
  label : String
deriving DecidableEq, Repr, Inhabited

namespace BlankNode

/-- The blank node of a label that may be written with `_:` in front. -/
def ofText (text : String) : BlankNode :=
  match text.toList with
  | '_' :: ':' :: label => ⟨String.ofList label⟩
  | _ => ⟨text⟩

/-- The label with `_:` in front. -/
def render (node : BlankNode) : String :=
  "_:" ++ node.label

end BlankNode

/-- An RDF term or a variable. -/
inductive Term where
  | iri (iri : Iri)
  | literal (literal : Literal)
  /-- A variable without a value. -/
  | free (name : String)
  /-- A variable that is resolved to `value`. -/
  | bound (name : String) (value : Term)
  | blank (node : BlankNode)
deriving DecidableEq, Repr, Inhabited

/-- A variable with the term that it is resolved to, if any. -/
structure Variable where
  name : String
  binding : Option Term
deriving DecidableEq, Repr, Inhabited

namespace Variable

/-- The name without a sigil in front. -/
def stripSigil (text : String) : String :=
  match text.toList with
  | '?' :: name => String.ofList name
  | '$' :: name => String.ofList name
  | _ => text

/-- The free variable of a name that may be written with `?` or `$` in front. -/
def ofText (text : String) : Variable := ⟨stripSigil text, none⟩

/-- The variable without its value. -/
def unbound (v : Variable) : Variable := ⟨v.name, none⟩

/-- The name with a question mark in front, whether there is a value or not. -/
def render (v : Variable) : String :=
  "?" ++ v.name

end Variable

namespace Term

/-- The property `rdf:type`. -/
def rdfType : Term := .iri ⟨Vocabulary.rdfType⟩

/-- The place of a variable with the value that it carries. -/
def ofVariable : Variable → Term
  | ⟨name, none⟩ => .free name
  | ⟨name, some value⟩ => .bound name value

/-- The variable that stands here, if one does. -/
def asVariable : Term → Option Variable
  | .free name => some ⟨name, none⟩
  | .bound name value => some ⟨name, some value⟩
  | _ => none

@[simp] theorem asVariable_ofVariable (v : Variable) : (ofVariable v).asVariable = some v := by
  obtain ⟨name, _ | value⟩ := v <;> rfl

/-- The term that stands here in the end: values are followed until one is not a bound variable. -/
def effective : Term → Term
  | .bound _ value => value.effective
  | t => t

/-- Whether the term is a variable without a value. -/
def isFree : Term → Bool
  | .free _ => true
  | _ => false

/-- The term as it is written in a query: a resolved variable is written as its value. -/
def render : Term → String
  | .iri i => i.render
  | .literal l => l.render
  | .free name => "?" ++ name
  | .bound _ value => value.render
  | .blank n => n.render

@[simp] theorem effective_effective (t : Term) : t.effective.effective = t.effective := by
  induction t with
  | bound name value ih => exact ih
  | _ => rfl

@[simp] theorem render_effective (t : Term) : t.effective.render = t.render := by
  induction t with
  | bound name value ih => exact ih
  | _ => rfl

/-- No effective term is a bound variable. -/
theorem effective_ne_bound (t : Term) (name : String) (value : Term) :
    t.effective ≠ .bound name value := by
  induction t with
  | bound _ _ ih => exact ih
  | _ => simp [effective]

end Term

end GraphPattern
