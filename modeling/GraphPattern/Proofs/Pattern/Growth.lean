import GraphPattern.Proofs.Pattern.Collapse
import Mathlib.Data.List.Basic

/-!
# Groups that grow

Whatever is put at the end of a group, in an element of its own or in the last one, is read after
all that was there before. Slots can be replaced before or after something is put there, and where the
group has no `BIND`s of a name, those of what is put there can be removed before or after.
-/

namespace GraphPattern.Group

@[simp] theorem slots_cons_nil (e : Element) : slots [e] = e.slots := by
  simp [slots]

theorem slots_concat (g : Group) (e : Element) : slots (g ++ [e]) = slots g ++ e.slots := by
  rw [slots_append, slots_cons_nil]

theorem slots_pushTriple (g : Group) (t : Triple) :
    slots (g.pushTriple t) = slots g ++ t.terms.map .term := by
  unfold pushTriple
  split
  · rename_i ts h
    obtain ⟨front, rfl⟩ := List.getLast?_eq_some_iff.mp h
    simp [Element.slots]
  · simp [Element.slots]

theorem slots_pushTriples (g : Group) (ts : List Triple) :
    slots (g.pushTriples ts) = slots g ++ (ts.flatMap Triple.terms).map .term := by
  induction ts generalizing g with
  | nil => simp [pushTriples]
  | cons t ts ih =>
    show slots ((g.pushTriple t).pushTriples ts) = _
    rw [ih, slots_pushTriple, List.append_assoc, List.flatMap_cons, List.map_append]

theorem slots_pushAlternative (g alternative : Group) :
    slots (g.pushAlternative alternative) = slots g ++ slots alternative := by
  unfold pushAlternative
  split
  · rename_i gs h
    obtain ⟨front, rfl⟩ := List.getLast?_eq_some_iff.mp h
    simp [Element.slots, slotsOfAll]
  · simp [Element.slots, slotsOfAll]

/-- What holds of all slots of a group holds after it has grown if it holds of what was added. -/
theorem forall_slots_of_append {P : Slot → Prop} {g h : Group} {added : List Slot}
    (hslots : slots h = slots g ++ added) (hg : ∀ s ∈ slots g, P s) (hadded : ∀ s ∈ added, P s) :
    ∀ s ∈ slots h, P s := by
  intro s hs
  rw [hslots, List.mem_append] at hs
  rcases hs with hs | hs
  · exact hg s hs
  · exact hadded s hs

/-! ## Slots that are replaced -/

theorem mapSlots_concat (m : SlotMap) (g : Group) (e : Element) :
    mapSlots m (g ++ [e]) = mapSlots m g ++ [e.mapSlots m] := by
  rw [mapSlots_append, mapSlots, mapSlots]

theorem mapSlots_pushTriple (m : SlotMap) (g : Group) (t : Triple) :
    mapSlots m (g.pushTriple t) = pushTriple (mapSlots m g) (t.map m.term) := by
  rcases List.eq_nil_or_concat' g with rfl | ⟨front, e, rfl⟩
  · rfl
  · cases e with
    | block ts => simp [pushTriple, mapSlots, Element.mapSlots]
    | _ => simp [pushTriple, mapSlots, Element.mapSlots]

theorem mapSlots_pushTriples (m : SlotMap) (g : Group) (ts : List Triple) :
    mapSlots m (g.pushTriples ts) = pushTriples (mapSlots m g) (ts.map (Triple.map m.term)) := by
  induction ts generalizing g with
  | nil => rfl
  | cons t ts ih =>
    show mapSlots m ((g.pushTriple t).pushTriples ts) = _
    rw [ih, mapSlots_pushTriple]
    rfl

theorem mapSlots_pushAlternative (m : SlotMap) (g h : Group) :
    mapSlots m (g.pushAlternative h) = pushAlternative (mapSlots m g) (mapSlots m h) := by
  rcases List.eq_nil_or_concat' g with rfl | ⟨front, e, rfl⟩
  · rfl
  · cases e with
    | union gs => simp [pushAlternative, mapSlots, Element.mapSlots, mapSlotsOfAll]
    | _ => simp [pushAlternative, mapSlots, Element.mapSlots, mapSlotsOfAll]

/-! ## Computed variables that are removed -/

theorem otherElements_append (name : String) (g h : Group) :
    otherElements name (g ++ h) = otherElements name g ++ otherElements name h := by
  induction g with
  | nil => rfl
  | cons e g ih =>
    simp only [List.cons_append, otherElements, ih]
    split <;> rfl

theorem withoutBindsAll_append (name : String) (gs hs : List (List Element)) :
    withoutBindsAll name (gs ++ hs) = withoutBindsAll name gs ++ withoutBindsAll name hs := by
  induction gs with
  | nil => rfl
  | cons g gs ih => simp only [List.cons_append, withoutBindsAll, ih]

section Absent

variable {name : String} {g : Group} (h : ∀ s ∈ slots g, s.isTargetOf name = false)
include h

theorem withoutBinds_concat {e : Element} (he : e.isBindOf name = false) :
    withoutBinds name (g ++ [e]) = g ++ [e.withoutBinds name] := by
  rw [withoutBinds, otherElements_append, otherElements_eq_self g h,
    otherElements_cons_of_not_isBindOf he, otherElements]
  cases g <;> rfl

theorem withoutBinds_pushAlternative (alternative : Group) :
    withoutBinds name (g.pushAlternative alternative) =
      g.pushAlternative (withoutBinds name alternative) := by
  unfold pushAlternative
  split
  · rename_i gs hlast
    obtain ⟨front, rfl⟩ := List.getLast?_eq_some_iff.mp hlast
    simp only [slots_concat, Element.slots, List.forall_mem_append] at h
    rw [List.dropLast_concat, withoutBinds_concat h.1 rfl, Element.withoutBinds,
      withoutBindsAll_append, withoutBindsAll_eq_self gs h.2]
    rfl
  · exact withoutBinds_concat h rfl

end Absent

end GraphPattern.Group
