import GraphPattern.Builder.PatternBuilder
import GraphPattern.Query

/-!
# Builders of queries

A select builder is a pattern builder with a projection. The entries of the projection are slots
too: a variable that is resolved is projected with its value.
-/

namespace GraphPattern

/-- A `SELECT` query in the making. -/
structure SelectBuilder where
  distinct : Bool
  /-- The variables asked for; all of them where there are none. -/
  projection : List Variable
  body : PatternBuilder

namespace SelectBuilder

/-- A builder of a query that asks for everything of an empty group. -/
def new (config : Config) : SelectBuilder := ⟨false, [], .new config⟩

/-- The query as it stands, on its way into another pattern. -/
def toSubQuery (b : SelectBuilder) : SubQuery :=
  ⟨b.distinct, b.projection, b.body.group, b.body.prefixes⟩

/-- The builder as an argument of another one. -/
def toArg (b : SelectBuilder) : PatternArg := .query b.toSubQuery

/-- The query, its pattern with every resolved variable replaced by its value. -/
def build (b : SelectBuilder) : Query where
  prefixes := b.body.prefixes
  distinct := b.distinct
  projection := b.projection
  pattern := b.body.build
  layout := b.body.layout

/-- The query as text. -/
def render (b : SelectBuilder) : String := b.build.render

/-! ## Calls -/

/-- A call of the pattern builder. -/
def onBody {α : Type} (m : BuildM PatternBuilder α) : BuildM SelectBuilder α := fun s =>
  match m ⟨s.builder.body, s.nextLabel⟩ with
  | .ok a t => .ok a ⟨{ s.builder with body := t.builder }, t.nextLabel⟩
  | .error e t => .error e ⟨{ s.builder with body := t.builder }, t.nextLabel⟩

/-- Asks for a variable. One that is asked for already is left as it is. -/
def addVar (var : Arg Term) : BuildM SelectBuilder Unit := do
  let v ← BuildM.ofExcept var.var
  BuildM.update fun b =>
    if b.projection.any (·.name = v.name) then b
    else { b with projection := b.projection ++ [b.body.project v] }

/-- Asks for different solutions only, or for all. -/
def setDistinct (on : Bool) : BuildM SelectBuilder Unit :=
  BuildM.update fun b => { b with distinct := on }

/-- Resolves a variable to a term, in the pattern and in the projection. -/
def setVar (var : Arg Term) (value : Arg Term) : BuildM SelectBuilder Unit := do
  let b ← BuildM.builder
  let v ← BuildM.ofExcept var.var
  let t ← BuildM.ofExcept (value.term b.body.prefixes)
  onBody (PatternBuilder.setVar (.value (.free v.name)) (.value t))
  BuildM.update fun b =>
    { b with projection := b.projection.map (Variable.resolve v.name (some t)) }

/-- Frees a variable, in the pattern and in the projection. -/
def unsetVar (var : Arg Term) : BuildM SelectBuilder Unit := do
  let v ← BuildM.ofExcept var.var
  onBody (PatternBuilder.unsetVar (.value (.free v.name)))
  BuildM.update fun b =>
    { b with projection := b.projection.map (Variable.resolve v.name none) }

end SelectBuilder

end GraphPattern
