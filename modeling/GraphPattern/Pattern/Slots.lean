import GraphPattern.Pattern

/-!
# The slots of a pattern

A slot is a place in a pattern that holds a term or a variable. `Group.slots` lists the slots of a
group in reading order, through all scopes; `Group.mapSlots` replaces what they hold and leaves the
rest of the tree as it is. `Group.slots_mapSlots` ties the two together, so what becomes of a
pattern can be read off the list of its slots.
-/

namespace GraphPattern

/-- A place that holds a term or a variable. -/
inductive Slot where
  /-- A place in a triple, a path or an expression. -/
  | term (t : Term)
  /-- An entry of a projection. -/
  | projected (v : Variable)
  /-- The target of a `BIND`. -/
  | target (v : Variable)
deriving DecidableEq, Repr

/-! ## Reading the slots -/

mutual

/-- The slots of an element. A `BIND` has its expression before its target, a nested query its
projection before its body. -/
def Element.slots : Element → List Slot
  | .block ts => (ts.flatMap Triple.terms).map .term
  | .optional g => Group.slots g
  | .union gs => Group.slotsOfAll gs
  | .minus g => Group.slots g
  | .subQuery _ vs g _ => vs.map .projected ++ Group.slots g
  | .bind e v => e.terms.map .term ++ [.target v]
  | .filter e => e.terms.map .term

/-- The slots of a group, in reading order. -/
def Group.slots : List Element → List Slot
  | [] => []
  | e :: g => Element.slots e ++ Group.slots g

/-- The slots of several groups, one after the other. -/
def Group.slotsOfAll : List (List Element) → List Slot
  | [] => []
  | g :: gs => Group.slots g ++ Group.slotsOfAll gs

end

/-- Groups that are put end to end are read one after the other. -/
@[simp] theorem Group.slots_append (g h : List Element) :
    Group.slots (g ++ h) = Group.slots g ++ Group.slots h := by
  induction g with
  | nil => simp [Group.slots]
  | cons e g ih => simp [Group.slots, ih]

@[simp] theorem Group.slotsOfAll_append (gs hs : List (List Element)) :
    Group.slotsOfAll (gs ++ hs) = Group.slotsOfAll gs ++ Group.slotsOfAll hs := by
  induction gs with
  | nil => simp [Group.slotsOfAll]
  | cons g gs ih => simp [Group.slotsOfAll, ih]

/-! ## Writing the slots -/

/-- What takes the place of a term and of an entry of a projection. The target of a `BIND` is never
replaced. -/
structure SlotMap where
  term : Term → Term
  projected : Variable → Variable

/-- The slot with what takes the place of what it holds. -/
def Slot.map (m : SlotMap) : Slot → Slot
  | .term t => .term (m.term t)
  | .projected v => .projected (m.projected v)
  | .target v => .target v

mutual

/-- The element with its slots replaced. -/
def Element.mapSlots (m : SlotMap) : Element → Element
  | .block ts => .block (ts.map (Triple.map m.term))
  | .optional g => .optional (Group.mapSlots m g)
  | .union gs => .union (Group.mapSlotsOfAll m gs)
  | .minus g => .minus (Group.mapSlots m g)
  | .subQuery d vs g p => .subQuery d (vs.map m.projected) (Group.mapSlots m g) p
  | .bind e v => .bind (e.map m.term) v
  | .filter e => .filter (e.map m.term)

/-- The group with its slots replaced. -/
def Group.mapSlots (m : SlotMap) : List Element → List Element
  | [] => []
  | e :: g => Element.mapSlots m e :: Group.mapSlots m g

/-- The groups with their slots replaced. -/
def Group.mapSlotsOfAll (m : SlotMap) : List (List Element) → List (List Element)
  | [] => []
  | g :: gs => Group.mapSlots m g :: Group.mapSlotsOfAll m gs

end

@[simp] theorem Group.mapSlots_append (m : SlotMap) (g h : List Element) :
    Group.mapSlots m (g ++ h) = Group.mapSlots m g ++ Group.mapSlots m h := by
  induction g with
  | nil => simp [Group.mapSlots]
  | cons e g ih => simp [Group.mapSlots, ih]

@[simp] theorem Group.mapSlotsOfAll_append (m : SlotMap) (gs hs : List (List Element)) :
    Group.mapSlotsOfAll m (gs ++ hs) = Group.mapSlotsOfAll m gs ++ Group.mapSlotsOfAll m hs := by
  induction gs with
  | nil => simp [Group.mapSlotsOfAll]
  | cons g gs ih => simp [Group.mapSlotsOfAll, ih]

/-! ## The slots of what is written -/

mutual

theorem Path.terms_map (f : Term → Term) : ∀ p : Path, (p.map f).terms = p.terms.map f
  | .predicate t => by simp [Path.map, Path.terms]
  | .sequence ps => by simp [Path.map, Path.terms, Path.termsOfSteps_mapSteps f ps]

theorem Path.termsOfSteps_mapSteps (f : Term → Term) :
    ∀ ps : List Path, Path.termsOfSteps (Path.mapSteps f ps) = (Path.termsOfSteps ps).map f
  | [] => by simp [Path.mapSteps, Path.termsOfSteps]
  | p :: ps => by
    simp [Path.mapSteps, Path.termsOfSteps, Path.terms_map f p, Path.termsOfSteps_mapSteps f ps]

end

mutual

theorem Expression.terms_map (f : Term → Term) : ∀ e : Expression, (e.map f).terms = e.terms.map f
  | .term t => by simp [Expression.map, Expression.terms]
  | .binary _ l r => by
    simp [Expression.map, Expression.terms, Expression.terms_map f l, Expression.terms_map f r]
  | .unary _ e => by simp [Expression.map, Expression.terms, Expression.terms_map f e]
  | .call _ es => by simp [Expression.map, Expression.terms, Expression.termsOfAll_mapAll f es]
  | .isIn e es _ => by
    simp [Expression.map, Expression.terms, Expression.terms_map f e,
      Expression.termsOfAll_mapAll f es]

theorem Expression.termsOfAll_mapAll (f : Term → Term) : ∀ es : List Expression,
    Expression.termsOfAll (Expression.mapAll f es) = (Expression.termsOfAll es).map f
  | [] => by simp [Expression.mapAll, Expression.termsOfAll]
  | e :: es => by
    simp [Expression.mapAll, Expression.termsOfAll, Expression.terms_map f e,
      Expression.termsOfAll_mapAll f es]

end

theorem Triple.terms_map (f : Term → Term) (t : Triple) : (t.map f).terms = t.terms.map f := by
  simp [Triple.map, Triple.terms, Path.terms_map]

theorem Slot.map_term_map (m : SlotMap) (ts : List Term) :
    (ts.map m.term).map Slot.term = (ts.map Slot.term).map (Slot.map m) := by
  simp [Slot.map]

mutual

theorem Element.slots_mapSlots (m : SlotMap) :
    ∀ e : Element, (e.mapSlots m).slots = e.slots.map (Slot.map m)
  | .block ts => by
    simp only [Element.mapSlots, Element.slots, ← Slot.map_term_map, List.map_flatMap,
      List.flatMap_map, Triple.terms_map]
  | .optional g => by simp [Element.mapSlots, Element.slots, Group.slots_mapSlots m g]
  | .union gs => by simp [Element.mapSlots, Element.slots, Group.slotsOfAll_mapSlotsOfAll m gs]
  | .minus g => by simp [Element.mapSlots, Element.slots, Group.slots_mapSlots m g]
  | .subQuery _ vs g _ => by
    simp [Element.mapSlots, Element.slots, Group.slots_mapSlots m g, Slot.map]
  | .bind e v => by
    simp [Element.mapSlots, Element.slots, Expression.terms_map, Slot.map]
  | .filter e => by
    simp [Element.mapSlots, Element.slots, Expression.terms_map, Slot.map]

/-- Replacing what slots hold changes neither their number nor their order. -/
theorem Group.slots_mapSlots (m : SlotMap) :
    ∀ g : List Element, Group.slots (Group.mapSlots m g) = (Group.slots g).map (Slot.map m)
  | [] => by simp [Group.mapSlots, Group.slots]
  | e :: g => by
    simp [Group.mapSlots, Group.slots, Element.slots_mapSlots m e, Group.slots_mapSlots m g]

theorem Group.slotsOfAll_mapSlotsOfAll (m : SlotMap) : ∀ gs : List (List Element),
    Group.slotsOfAll (Group.mapSlotsOfAll m gs) = (Group.slotsOfAll gs).map (Slot.map m)
  | [] => by simp [Group.mapSlotsOfAll, Group.slotsOfAll]
  | g :: gs => by
    simp [Group.mapSlotsOfAll, Group.slotsOfAll, Group.slots_mapSlots m g,
      Group.slotsOfAll_mapSlotsOfAll m gs]

end

/-! ## Variables and blank nodes in the slots -/

/-- The variables met on the way from a term to its effective term. -/
def Term.variables : Term → List Variable
  | .free name => [⟨name, none⟩]
  | .bound name value => ⟨name, some value⟩ :: value.variables
  | _ => []

/-- The blank node that a term stands for in the end, if it is one. -/
def Term.node? : Term → Option BlankNode
  | .blank n => some n
  | .bound _ value => value.node?
  | _ => none

/-- The variables of a slot: those of a term and of its values, a projected variable and those of
its value, and a target alone. -/
def Slot.variables : Slot → List Variable
  | .term t => t.variables
  | .projected v => v :: (v.binding.map Term.variables).getD []
  | .target v => [v]

/-- The blank node in a slot, if there is one. The value of a target is not looked at. -/
def Slot.node? : Slot → Option BlankNode
  | .term t => t.node?
  | .projected v => v.binding.bind Term.node?
  | .target _ => none

namespace Group

/-- The blank nodes of a group, one for each place where one stands. -/
def nodes (g : Group) : List BlankNode := (slots g).filterMap Slot.node?

/-- The first value, in reading order, that a variable of this name carries. -/
def findBinding (g : Group) (name : String) : Option Term :=
  ((slots g).flatMap Slot.variables).findSome? fun v => if v.name = name then v.binding else none

end Group

end GraphPattern
