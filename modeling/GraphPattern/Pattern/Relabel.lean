import GraphPattern.OrderedMap
import GraphPattern.Pattern.Pass

/-!
# Relabelling blank nodes

A renaming gives some labels a new blank node. It is applied to all slots at once, the values of
variables included, so new labels are not renamed again.
-/

namespace GraphPattern

/-- The new nodes of some labels. -/
abbrev Renaming := OrderedMap BlankNode

/-- The node that takes the place of a node. -/
def Renaming.node (r : Renaming) (n : BlankNode) : BlankNode := (r.lookup n.label).getD n

/-- The label that takes the place of a label. -/
def Renaming.label (r : Renaming) (label : String) : String := (r.node ⟨label⟩).label

theorem Renaming.label_of_lookup_eq_none {r : Renaming} {label : String}
    (h : r.lookup label = none) : r.label label = label := by
  rw [Renaming.label, node, h, Option.getD_none]

theorem Renaming.label_of_lookup_eq_some {r : Renaming} {label : String} {n : BlankNode}
    (h : r.lookup label = some n) : r.label label = n.label := by
  rw [Renaming.label, node, h, Option.getD_some]

/-- The term with its blank node renamed, if it stands for one. -/
def Term.relabel (r : Renaming) : Term → Term
  | .blank n => .blank (r.node n)
  | .bound name value => .bound name (value.relabel r)
  | .iri i => .iri i
  | .literal l => .literal l
  | .free name => .free name

/-- Renames the blank nodes of all slots. -/
def SlotMap.relabel (r : Renaming) : SlotMap where
  term := Term.relabel r
  projected v := ⟨v.name, v.binding.map (Term.relabel r)⟩

namespace Group

/-- The group with its blank nodes renamed. -/
def relabel (r : Renaming) (g : Group) : Group := mapSlots (.relabel r) g

end Group

/-! ## Counting the places -/

/-- Renames the blank node of a term, and counts it if it has a new node. -/
def Term.relabelPass (r : Renaming) : Term → Counted Nat Term
  | .blank n =>
    match r.lookup n.label with
    | some new => ⟨1, .blank new⟩
    | none => ⟨0, .blank n⟩
  | .bound name value => (value.relabelPass r).map (.bound name)
  | .iri i => ⟨0, .iri i⟩
  | .literal l => ⟨0, .literal l⟩
  | .free name => ⟨0, .free name⟩

/-- Renames the blank node in the value of a variable. -/
def Variable.relabelPass (r : Renaming) (v : Variable) : Counted Nat Variable :=
  match v.binding with
  | some value => (value.relabelPass r).map fun new => ⟨v.name, some new⟩
  | none => ⟨0, v⟩

/-- Counts the places that get another node. -/
def Pass.relabel (r : Renaming) : Pass Nat where
  term := Term.relabelPass r
  projected := Variable.relabelPass r
  removed := none
  removal := 0

namespace Group

/-- The group that `relabel` gives, with the number of places that got another node. -/
def relabelPass (r : Renaming) (g : Group) : Counted Nat Group := g.pass (.relabel r)

/-- The number of places in which `relabel` puts another node. -/
def relabelCount (r : Renaming) (g : Group) : Nat := (g.relabelPass r).count

end Group

/-- The query with its blank nodes renamed, in its projection and in its pattern, and the number of
places that got another node. -/
def SubQuery.relabelPass (r : Renaming) (q : SubQuery) : Counted Nat SubQuery :=
  .both (fun vs g => { q with projection := vs, pattern := g })
    (Counted.each (Variable.relabelPass r) q.projection) (q.pattern.relabelPass r)

end GraphPattern
