import GraphPattern.OrderedMap
import GraphPattern.Pattern.Effective
import GraphPattern.Pattern.Equality

/-!
# Isomorphism of patterns

Two patterns say the same if they differ only in the labels of their blank nodes, in empty blocks,
and in whether a value stands in a place itself or as the value of a variable. `Group.isomorphic`
decides it in one pass over both patterns, which pairs labels as it meets them and never takes a pair
back, where `Group.same` asks for the same labels. The `normal` form of a pattern is the pattern
without what does not count, apart from the labels.
-/

namespace GraphPattern

/-! ## Labels that stand for one another -/

/-- Labels of one pattern with their partners in another one, as a map in either direction. -/
structure Pairing where
  forward : OrderedMap String
  backward : OrderedMap String
  inverse : ∀ left right,
    forward.lookup left = some right ↔ backward.lookup right = some left

namespace Pairing

/-- No label has a partner. -/
def empty : Pairing := ⟨.empty, .empty, by simp⟩

/-- Makes two labels without partners partners. -/
def extend (p : Pairing) (left right : String) (hleft : p.forward.lookup left = none)
    (hright : p.backward.lookup right = none) : Pairing where
  forward := p.forward.insert left right
  backward := p.backward.insert right left
  inverse l r := by
    rw [OrderedMap.lookup_insert, OrderedMap.lookup_insert]
    by_cases hl : l = left <;> by_cases hr : r = right
    · simp [hl, hr]
    · have hne : p.backward.lookup r ≠ some left := fun h => by
        rw [← p.inverse, hleft] at h
        cases h
      simp [hl, hr, Ne.symm hr, hne]
    · have hne : p.forward.lookup l ≠ some right := fun h => by
        rw [p.inverse, hright] at h
        cases h
      simp [hl, hr, Ne.symm hl, hne]
    · simpa [hl, hr] using p.inverse l r

/-- Makes two labels partners, unless one of them has another partner. -/
def join (p : Pairing) (left right : String) : Option Pairing :=
  if h : p.forward.lookup left = none ∧ p.backward.lookup right = none then
    some (p.extend left right h.1 h.2)
  else if p.forward.lookup left = some right ∧ p.backward.lookup right = some left then some p
  else none

end Pairing

/-! ## The pass over both patterns -/

/-- A comparison, which fails where two things differ and otherwise pairs their labels. -/
abbrev Comparison := StateT Pairing Option Unit

namespace Comparison

/-- Compares two labels. -/
def labels (left right : String) : Comparison := fun p =>
  (p.join left right).map fun q => ((), q)

/-- Compares the members of two lists one by one. -/
def each {α : Type} (compare : α → α → Comparison) : List α → List α → Comparison
  | [], [] => pure ()
  | a :: as, b :: bs => do
    compare a b
    each compare as bs
  | _, _ => failure

end Comparison

/-- Compares what two terms stand for in the end. -/
def Term.correspond (s t : Term) : Comparison :=
  match s.effective, t.effective with
  | .blank n, .blank k => .labels n.label k.label
  | s, t => guard (s = t)

/-- Compares two entries of projections. -/
def Variable.correspond (v w : Variable) : Comparison := do
  guard (v.name = w.name)
  match v.binding, w.binding with
  | none, none => pure ()
  | some s, some t => s.correspond t
  | _, _ => failure

mutual

/-- Compares two paths. -/
def Path.correspond : Path → Path → Comparison
  | .predicate s, .predicate t => s.correspond t
  | .sequence ps, .sequence qs => Path.correspondSteps ps qs
  | _, _ => failure

/-- Compares two lists of steps. -/
def Path.correspondSteps : List Path → List Path → Comparison
  | [], [] => pure ()
  | p :: ps, q :: qs => do
    Path.correspond p q
    Path.correspondSteps ps qs
  | _, _ => failure

end

mutual

/-- Compares two expressions. -/
def Expression.correspond : Expression → Expression → Comparison
  | .term s, .term t => s.correspond t
  | .binary o l r, .binary o' l' r' => do
    guard (o = o')
    Expression.correspond l l'
    Expression.correspond r r'
  | .unary o e, .unary o' e' => do
    guard (o = o')
    Expression.correspond e e'
  | .call c es, .call c' es' => do
    guard (c = c')
    Expression.correspondAll es es'
  | .isIn e es n, .isIn e' es' n' => do
    guard (n = n')
    Expression.correspond e e'
    Expression.correspondAll es es'
  | _, _ => failure

/-- Compares two lists of expressions. -/
def Expression.correspondAll : List Expression → List Expression → Comparison
  | [], [] => pure ()
  | e :: es, e' :: es' => do
    Expression.correspond e e'
    Expression.correspondAll es es'
  | _, _ => failure

end

/-- Compares two triples. -/
def Triple.correspond (t u : Triple) : Comparison := do
  t.subject.correspond u.subject
  t.predicate.correspond u.predicate
  t.object.correspond u.object

mutual

/-- Compares two elements. -/
def Element.correspond : Element → Element → Comparison
  | .block ts, .block us => .each Triple.correspond ts us
  | .optional g, .optional h => Group.correspond g h
  | .union gs, .union hs => Group.correspondAll gs hs
  | .minus g, .minus h => Group.correspond g h
  | .subQuery d vs g _, .subQuery d' vs' h _ => do
    guard (d = d')
    Comparison.each Variable.correspond vs vs'
    Group.correspond g h
  | .bind e v, .bind e' v' => do
    guard (v.name = v'.name)
    e.correspond e'
  | .filter e, .filter e' => e.correspond e'
  | _, _ => failure

/-- Compares two groups. Empty blocks on either side are passed over. -/
def Group.correspond : List Element → List Element → Comparison
  | [], h => guard (Group.isVacant h)
  | e :: g, h =>
    if e.isEmptyBlock then Group.correspond g h
    else match h.dropWhile Element.isEmptyBlock with
      | [] => failure
      | f :: h => do
        Element.correspond e f
        Group.correspond g h

/-- Compares two lists of groups. -/
def Group.correspondAll : List (List Element) → List (List Element) → Comparison
  | [], [] => pure ()
  | g :: gs, h :: hs => do
    Group.correspond g h
    Group.correspondAll gs hs
  | _, _ => failure

end

/-- Whether two patterns say the same up to the labels of blank nodes. -/
def Group.isomorphic (g h : Group) : Bool := ((Group.correspond g h).run .empty).isSome

/-! ## Normal forms -/

mutual

/-- The element without empty blocks below it, without the prefixes of nested queries and without
the values of `BIND` targets, none of which change what a pattern says. -/
def Element.strip : Element → Element
  | .block ts => .block ts
  | .optional g => .optional (Group.strip g)
  | .union gs => .union (Group.stripAll gs)
  | .minus g => .minus (Group.strip g)
  | .subQuery d vs g _ => .subQuery d vs (Group.strip g) .empty
  | .bind e v => .bind e v.unbound
  | .filter e => .filter e

/-- The elements of a group other than empty blocks, each stripped. -/
def Group.strip : List Element → List Element
  | [] => []
  | e :: g => if e.isEmptyBlock then Group.strip g else Element.strip e :: Group.strip g

/-- The groups, each stripped. -/
def Group.stripAll : List (List Element) → List (List Element)
  | [] => []
  | g :: gs => Group.strip g :: Group.stripAll gs

end

/-- Replaces every term, and the value of every projected variable, by its effective term. -/
def SlotMap.normal : SlotMap where
  term := Term.effective
  projected v := ⟨v.name, v.binding.map Term.effective⟩

/-- What a pattern says, by the labels that it has for its blank nodes. -/
def Group.normal (g : Group) : Group := mapSlots .normal (strip g)

end GraphPattern
