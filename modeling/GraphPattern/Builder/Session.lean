import GraphPattern.Error

/-!
# Sessions

A builder at work, beside the number of the next label, which all builders share. A call changes the
session and may fail. What it has done before it fails stays done, so a call does what can fail
before it changes the builder.
-/

namespace GraphPattern

/-- A builder, and the number that the next label is tried with. The number has no end, as in
`Labelling`. -/
structure Session (β : Type) where
  builder : β
  nextLabel : Nat

/-- A call of a builder. -/
abbrev BuildM (β α : Type) := EStateM Error (Session β) α

namespace BuildM

variable {β α : Type}

/-- The builder as it is. -/
def builder : BuildM β β := fun s => .ok s.builder s

/-- Changes the builder. -/
def update (f : β → β) : BuildM β Unit := fun s => .ok () { s with builder := f s.builder }

/-- A result that does not depend on the session. -/
def ofExcept : Except Error α → BuildM β α
  | .ok a => fun s => .ok a s
  | .error e => fun s => .error e s

end BuildM

end GraphPattern
