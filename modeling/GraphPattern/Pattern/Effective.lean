import GraphPattern.Pattern.Slots

/-!
# The effective pattern

A pattern stands for the pattern in which every resolved variable is replaced by its value. An entry
of a projection and the target of a `BIND` have to be variables, so they keep their form.
-/

namespace GraphPattern

/-- Replaces every term by its effective term. -/
def SlotMap.effective : SlotMap where
  term := Term.effective
  projected := id

/-- The group with every resolved variable replaced by its value. -/
def Group.effective (g : Group) : Group := Group.mapSlots .effective g

end GraphPattern
