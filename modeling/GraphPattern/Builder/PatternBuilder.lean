import GraphPattern.Builder.Argument
import GraphPattern.Builder.Session
import GraphPattern.Collection
import GraphPattern.Config
import GraphPattern.Pattern.Effective
import GraphPattern.Pattern.Substitution

/-!
# Builders of patterns

A pattern builder collects the elements of one group. Variables can be resolved and freed again at
any time: a resolution reaches every slot of the variable in the group, and also what is added
later. What is attached is a copy, whose blank nodes are kept apart from those of the builder.
-/

namespace GraphPattern

/-- A group in the making. -/
structure PatternBuilder where
  group : Group
  prefixes : Prefixes
  /-- The variables that are resolved. -/
  values : Resolutions
  allocator : Allocator
  layout : Layout

namespace PatternBuilder

/-- A builder of an empty group. -/
def new (config : Config) : PatternBuilder :=
  ⟨[], .empty, .empty, config.allocator, config.layout⟩

/-- The group with every resolved variable replaced by its value. -/
def build (b : PatternBuilder) : Group := b.group.effective

/-- The group as text. -/
def render (b : PatternBuilder) : String := b.group.render b.layout 0

/-- The builder as an argument of another one. -/
def toArg (b : PatternBuilder) : PatternArg := .group b.group b.prefixes

/-- The builder with elements at the end of its group. -/
def append (b : PatternBuilder) (elements : Group) : PatternBuilder :=
  { b with group := b.group ++ elements }

/-- A variable as an entry of a projection: with its value, if it is resolved. -/
def project (b : PatternBuilder) (v : Variable) : Variable :=
  match b.values.lookup v.name with
  | some value => ⟨v.name, some value⟩
  | none => v

/-- The value that a variable has in the builder: the one that it is resolved to, or one that a slot
of the group came with. -/
def valueOf? (b : PatternBuilder) (name : String) : Option Term :=
  (b.values.lookup name).or (b.group.findBinding name)

/-! ## Parts of calls -/

/-- Takes new labels, which are not those of the group. -/
def withLabels {α : Type} (m : LabelM α) : BuildM PatternBuilder α := fun s =>
  match m ⟨s.nextLabel, s.builder.group.labels⟩ with
  | .ok a t => .ok a { s with nextLabel := t.next }
  | .error e t => .error (.structural e) { s with nextLabel := t.next }

/-- Makes a group fit to become part of this one: its blank nodes are kept apart, the prefixes of
its source are merged in, and the resolutions are applied. The labels to be replaced get their new
ones in some order. -/
def adopt (g : Group) (source : Prefixes) (order : LabelOrder) : BuildM PatternBuilder Group := do
  let b ← BuildM.builder
  let (_, g) ← withLabels (b.allocator.makeDisjoint g order)
  BuildM.update fun b => { b with prefixes := b.prefixes.merge source }
  return b.values.applyToGroup g

/-! ## Calls -/

/-- Declares a prefix for shorthand. -/
def addPrefix (label ns : String) : BuildM PatternBuilder Unit :=
  BuildM.update fun b => { b with prefixes := (b.prefixes.declare label ns).2 }

/-- Adds a triple to the last block. -/
def addWhere (subject : Arg Term) (predicate : Arg Path) (object : Arg Term) :
    BuildM PatternBuilder Unit := do
  let b ← BuildM.builder
  let t ← BuildM.ofExcept (Triple.ofArgs b.prefixes subject predicate object)
  BuildM.update fun b => { b with group := b.group.pushTriple (b.values.applyToTriple t) }

/-- Adds an optional pattern. A query gives its pattern only. -/
def addOptional (pattern : PatternArg) (order : LabelOrder) : BuildM PatternBuilder Unit := do
  let b ← BuildM.builder
  let (g, source) ← BuildM.ofExcept (pattern.body b.prefixes)
  let g ← adopt g source order
  BuildM.update fun b => b.append [.optional g]

/-- Adds an alternative to the union at the end, or to a new one. -/
def addUnion (pattern : PatternArg) (order : LabelOrder) : BuildM PatternBuilder Unit := do
  let b ← BuildM.builder
  let (g, source) ← BuildM.ofExcept (pattern.alternative b.prefixes)
  let g ← adopt g source order
  BuildM.update fun b => { b with group := b.group.pushAlternative g }

/-- Adds a pattern that must not match. A query gives its pattern only. -/
def addMinus (pattern : PatternArg) (order : LabelOrder) : BuildM PatternBuilder Unit := do
  let b ← BuildM.builder
  let (g, source) ← BuildM.ofExcept (pattern.body b.prefixes)
  let g ← adopt g source order
  BuildM.update fun b => b.append [.minus g]

/-- Adds a nested query. -/
def addSubQuery (query : SubQuery) (order : LabelOrder) : BuildM PatternBuilder Unit := do
  let g ← adopt [query.toElement] query.prefixes order
  BuildM.update fun b => b.append g

/-- Adds a computed variable. It may not have a value already. -/
def addBind (expression : Arg Expression) (target : Arg Term) : BuildM PatternBuilder Unit := do
  let v ← BuildM.ofExcept target.var
  let b ← BuildM.builder
  match b.valueOf? v.name with
  | some value =>
    BuildM.ofExcept (.error (.structural (.bindTargetResolved v.name value.render)))
  | none =>
    let e ← BuildM.ofExcept (expression.expression b.prefixes)
    BuildM.update fun b => b.append [.bind (b.values.applyToExpression e) v]

/-- Adds a condition. -/
def addFilter (condition : Arg Expression) : BuildM PatternBuilder Unit := do
  let b ← BuildM.builder
  let e ← BuildM.ofExcept (condition.expression b.prefixes)
  BuildM.update fun b => b.append [.filter (b.values.applyToExpression e)]

/-- Adds the triples of a list and gives its first node. -/
def list (terms : List (Arg Term)) : BuildM PatternBuilder Term := do
  let b ← BuildM.builder
  let members ← BuildM.ofExcept (terms.mapM fun t => t.term b.prefixes)
  let collection ← withLabels
    (Collection.ofTerms b.allocator (members.map b.values.applyToTerm))
  BuildM.update fun b => { b with group := b.group.pushTriples collection.triples }
  return collection.head

/-- Resolves a variable to a term. -/
def setVar (var : Arg Term) (value : Arg Term) : BuildM PatternBuilder Unit := do
  let b ← BuildM.builder
  let v ← BuildM.ofExcept var.var
  let t ← BuildM.ofExcept (value.term b.prefixes)
  BuildM.update fun b =>
    { b with group := b.group.substitute v.name (some t), values := b.values.insert v.name t }

/-- Frees a variable. -/
def unsetVar (var : Arg Term) : BuildM PatternBuilder Unit := do
  let v ← BuildM.ofExcept var.var
  BuildM.update fun b =>
    { b with group := b.group.substitute v.name none, values := b.values.erase v.name }

end PatternBuilder

end GraphPattern
