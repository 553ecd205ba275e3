import GraphPattern.Pattern.Slots

/-!
# Passes that count

A pass goes through a pattern once. It replaces what the slots hold, it may remove the `BIND`s of one
name from every scope, and it adds up what it counts on the way, so that the new pattern and the
count come from the same walk.
-/

namespace GraphPattern

/-! ## Values with a count -/

/-- A value, and what was counted while it was made. -/
structure Counted (κ α : Type) where
  count : κ
  value : α

namespace Counted

variable {κ α β γ : Type}

/-- Makes another value of the value, and counts nothing for that. -/
def map (f : α → β) (c : Counted κ α) : Counted κ β := ⟨c.count, f c.value⟩

/-- Makes one value of two, and adds up what was counted for them. -/
def both [Add κ] (f : α → β → γ) (c : Counted κ α) (d : Counted κ β) : Counted κ γ :=
  ⟨c.count + d.count, f c.value d.value⟩

/-- Goes through a list from left to right. -/
def each [OfNat κ 0] [Add κ] (f : α → Counted κ β) : List α → Counted κ (List β)
  | [] => ⟨0, []⟩
  | a :: as => both List.cons (f a) (each f as)

end Counted

/-! ## Triples and expressions -/

section Terms

variable {κ : Type} [OfNat κ 0] [Add κ] (f : Term → Counted κ Term)

mutual

/-- Replaces the terms of a path. -/
def Path.pass : Path → Counted κ Path
  | .predicate t => (f t).map .predicate
  | .sequence ps => (Path.passSteps ps).map .sequence

/-- Replaces the terms of a list of steps. -/
def Path.passSteps : List Path → Counted κ (List Path)
  | [] => ⟨0, []⟩
  | p :: ps => .both List.cons (Path.pass p) (Path.passSteps ps)

end

mutual

/-- Replaces the leaves of an expression. -/
def Expression.pass : Expression → Counted κ Expression
  | .term t => (f t).map .term
  | .binary op l r => .both (.binary op) (Expression.pass l) (Expression.pass r)
  | .unary op e => (Expression.pass e).map (.unary op)
  | .call c es => (Expression.passAll es).map (.call c)
  | .isIn e es n => .both (.isIn · · n) (Expression.pass e) (Expression.passAll es)

/-- Replaces the leaves of a list of expressions. -/
def Expression.passAll : List Expression → Counted κ (List Expression)
  | [] => ⟨0, []⟩
  | e :: es => .both List.cons (Expression.pass e) (Expression.passAll es)

end

/-- Replaces the terms of a triple. -/
def Triple.pass (t : Triple) : Counted κ Triple :=
  .both (fun s po => ⟨s, po.1, po.2⟩) (f t.subject) (.both Prod.mk (t.predicate.pass f) (f t.object))

end Terms

/-! ## Groups -/

/-- What a pass does: what it makes of a term and of an entry of a projection, and the name whose
`BIND`s it removes, if there is one, with what it counts for each of them. -/
structure Pass (κ : Type) where
  term : Term → Counted κ Term
  projected : Variable → Counted κ Variable
  removed : Option String
  removal : κ

/-- Whether the pass removes the element from the group in which it stands. -/
def Pass.removes {κ : Type} (p : Pass κ) (e : Element) : Bool := p.removed.any (e.isBindOf ·)

/-- The elements that are left of a group. One empty block stands in for them when none is left. -/
def Group.refill (before after : Group) : Group :=
  if after.isEmpty && !before.isEmpty then [.block []] else after

section Groups

variable {κ : Type} [OfNat κ 0] [Add κ] (p : Pass κ)

mutual

/-- The pass over an element that stays. The target of a `BIND` is never replaced. -/
def Element.pass : Element → Counted κ Element
  | .block ts => (Counted.each (Triple.pass p.term) ts).map .block
  | .optional g => (Group.passInside g).map fun h => .optional (Group.refill g h)
  | .union gs => (Group.passAll gs).map .union
  | .minus g => (Group.passInside g).map fun h => .minus (Group.refill g h)
  | .subQuery d vs g ps =>
    .both (fun ws h => .subQuery d ws (Group.refill g h) ps) (Counted.each p.projected vs)
      (Group.passInside g)
  | .bind e v => (e.pass p.term).map (.bind · v)
  | .filter e => (e.pass p.term).map .filter

/-- The pass over the elements of a group, as far as they stay. -/
def Group.passInside : List Element → Counted κ (List Element)
  | [] => ⟨0, []⟩
  | e :: g =>
    if p.removes e then .both (fun _ h => h) ⟨p.removal, ()⟩ (Group.passInside g)
    else .both List.cons (Element.pass e) (Group.passInside g)

/-- The pass over several groups. -/
def Group.passAll : List (List Element) → Counted κ (List (List Element))
  | [] => ⟨0, []⟩
  | g :: gs => .both List.cons ((Group.passInside g).map (Group.refill g)) (Group.passAll gs)

end

/-- The pass over a group. -/
def Group.pass (g : Group) : Counted κ Group := (Group.passInside p g).map (Group.refill g)

end Groups

end GraphPattern
