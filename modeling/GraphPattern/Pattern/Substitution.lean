import GraphPattern.OrderedMap
import GraphPattern.Pattern.Pass

/-!
# Substitution

A substitution resolves a variable to a term, or frees it again, in every slot that has its name.
The values that variables already carry are not entered. A variable that is resolved is no longer
computed: its `BIND`s are removed at every depth, and freeing it does not bring them back. The
target of a `BIND` is no slot of its variable in this sense.
-/

namespace GraphPattern

/-! ## Slots of one name -/

/-- The variable with a new value, if it has the name. -/
def Variable.resolve (name : String) (value : Option Term) (v : Variable) : Variable :=
  if v.name = name then ⟨v.name, value⟩ else v

/-- The term with a new value, if it is a variable of the name. -/
def Term.resolve (name : String) (value : Option Term) (t : Term) : Term :=
  match t.asVariable with
  | some v => ofVariable (v.resolve name value)
  | none => t

/-- Gives every slot of a name a value, or frees it. -/
def SlotMap.resolve (name : String) (value : Option Term) : SlotMap where
  term := Term.resolve name value
  projected := Variable.resolve name value

/-- Whether a substitution for the name writes this slot. -/
def Slot.isOf (name : String) : Slot → Bool
  | .term t => t.asVariable.any (·.name = name)
  | .projected v => v.name = name
  | .target _ => false

/-- Whether the slot is the target of a `BIND` that computes the variable of this name. -/
def Slot.isTargetOf (name : String) : Slot → Bool
  | .target v => v.name = name
  | _ => false

/-! ## Computed variables -/

mutual

/-- The element without the `BIND`s of a name below it. -/
def Element.withoutBinds (name : String) : Element → Element
  | .optional g => .optional (Group.refill g (Group.otherElements name g))
  | .union gs => .union (Group.withoutBindsAll name gs)
  | .minus g => .minus (Group.refill g (Group.otherElements name g))
  | .subQuery d vs g p => .subQuery d vs (Group.refill g (Group.otherElements name g)) p
  | .block ts => .block ts
  | .bind e v => .bind e v
  | .filter e => .filter e

/-- The elements other than `BIND`s of a name, without such `BIND`s below them. -/
def Group.otherElements (name : String) : List Element → List Element
  | [] => []
  | e :: g =>
    if e.isBindOf name then Group.otherElements name g
    else Element.withoutBinds name e :: Group.otherElements name g

/-- The groups without the `BIND`s of a name. -/
def Group.withoutBindsAll (name : String) : List (List Element) → List (List Element)
  | [] => []
  | g :: gs => Group.refill g (Group.otherElements name g) :: Group.withoutBindsAll name gs

end

namespace Group

/-- The group without the `BIND`s of a name, at any depth. -/
def withoutBinds (name : String) (g : Group) : Group := refill g (otherElements name g)

/-- The group in which the slots of a name are about to be written: a value that is to be set takes
the place of the `BIND`s that computed one. -/
def collapse (name : String) (value : Option Term) (g : Group) : Group :=
  if value.isSome then withoutBinds name g else g

/-- Resolves the variable of a name to a term, or frees it, in the whole group. -/
def substitute (name : String) (value : Option Term) (g : Group) : Group :=
  mapSlots (.resolve name value) (collapse name value g)

end Group

/-! ## Counting what is done -/

/-- What a substitution did: how many slots it wrote, and how many `BIND`s it removed. -/
structure SubstitutionCount where
  written : Nat
  collapsed : Nat
deriving DecidableEq, Repr

instance : OfNat SubstitutionCount 0 := ⟨⟨0, 0⟩⟩

instance : Add SubstitutionCount :=
  ⟨fun m n => ⟨m.written + n.written, m.collapsed + n.collapsed⟩⟩

/-- Gives the variable a new value if it has the name, and counts that. -/
def Variable.substitutionPass (name : String) (value : Option Term) (v : Variable) :
    Counted SubstitutionCount Variable :=
  if v.name = name then ⟨⟨1, 0⟩, ⟨v.name, value⟩⟩ else ⟨0, v⟩

/-- Gives the term a new value if it is a variable of the name, and counts that. -/
def Term.substitutionPass (name : String) (value : Option Term) (t : Term) :
    Counted SubstitutionCount Term :=
  match t.asVariable with
  | some v => (v.substitutionPass name value).map ofVariable
  | none => ⟨0, t⟩

/-- Counts the slots of a name that are written and the `BIND`s that a value takes the place of. -/
def Pass.substitution (name : String) (value : Option Term) : Pass SubstitutionCount where
  term := Term.substitutionPass name value
  projected := Variable.substitutionPass name value
  removed := if value.isSome then some name else none
  removal := ⟨0, 1⟩

namespace Group

/-- The group that `substitute` gives, with what was done to the group on the way. -/
def substitutionPass (name : String) (value : Option Term) (g : Group) :
    Counted SubstitutionCount Group := g.pass (.substitution name value)

/-- What `substitute` does to the group. -/
def substitutionCount (name : String) (value : Option Term) (g : Group) : SubstitutionCount :=
  (g.substitutionPass name value).count

end Group

/-! ## Many substitutions -/

/-- The terms that variables are resolved to, in the order in which they were first set. -/
abbrev Resolutions := OrderedMap Term

namespace Resolutions

/-- Resolves the variables one after the other, by a step that resolves one of them. -/
def replay {α : Type} (values : Resolutions) (step : String → Option Term → α → α) (a : α) : α :=
  values.entries.foldl (fun a e => step e.1 (some e.2) a) a

/-- The term with all resolutions applied. -/
def applyToTerm (values : Resolutions) (t : Term) : Term := values.replay Term.resolve t

/-- The triple with all resolutions applied. -/
def applyToTriple (values : Resolutions) (t : Triple) : Triple := t.map values.applyToTerm

/-- The expression with all resolutions applied. -/
def applyToExpression (values : Resolutions) (e : Expression) : Expression :=
  e.map values.applyToTerm

/-- The group with all resolutions applied. -/
def applyToGroup (values : Resolutions) (g : Group) : Group := values.replay Group.substitute g

end Resolutions

end GraphPattern
