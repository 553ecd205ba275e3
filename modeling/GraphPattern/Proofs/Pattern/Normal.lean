import GraphPattern.Pattern.Isomorphism
import GraphPattern.Proofs.Pattern.Relabel

/-!
# Normal forms

What is stripped for a normal form does not depend on what the slots hold (`Group.strip_mapSlots`) and
holds no blank nodes, so a pattern and its normal form have the same ones (`Group.nodes_normal`).
Replacing labels (`Group.normal_mapLabels`) and taking values for variables (`Group.normal_effective`)
can be done before or after.
-/

namespace GraphPattern

/-! ## What is stripped -/

@[simp] theorem Element.isEmptyBlock_mapSlots (m : SlotMap) (e : Element) :
    (e.mapSlots m).isEmptyBlock = e.isEmptyBlock := by
  cases e with
  | block ts => cases ts <;> rfl
  | _ => rfl

theorem Element.eq_block_nil_of_isEmptyBlock {e : Element} (h : e.isEmptyBlock = true) :
    e = .block [] := by
  cases e with
  | block ts =>
    cases ts with
    | nil => rfl
    | cons t ts => cases h
  | _ => cases h

section Strip

variable (m : SlotMap)

mutual

theorem Element.strip_mapSlots : ∀ e : Element, (e.mapSlots m).strip = e.strip.mapSlots m
  | .block _ => rfl
  | .optional g => congrArg Element.optional (Group.strip_mapSlots g)
  | .union gs => congrArg Element.union (Group.stripAll_mapSlotsOfAll gs)
  | .minus g => congrArg Element.minus (Group.strip_mapSlots g)
  | .subQuery d vs g _ =>
    congrArg (Element.subQuery d (vs.map m.projected) · .empty) (Group.strip_mapSlots g)
  | .bind _ _ => rfl
  | .filter _ => rfl

/-- Which elements are stripped does not depend on what the slots hold. -/
theorem Group.strip_mapSlots :
    ∀ g : List Element, Group.strip (Group.mapSlots m g) = Group.mapSlots m (Group.strip g)
  | [] => rfl
  | e :: g => by
    rw [Group.mapSlots, Group.strip, Group.strip, Element.isEmptyBlock_mapSlots,
      Element.strip_mapSlots e, Group.strip_mapSlots g]
    split <;> rfl

theorem Group.stripAll_mapSlotsOfAll : ∀ gs : List (List Element),
    Group.stripAll (Group.mapSlotsOfAll m gs) = Group.mapSlotsOfAll m (Group.stripAll gs)
  | [] => rfl
  | g :: gs => by
    rw [Group.mapSlotsOfAll, Group.stripAll, Group.stripAll, Group.strip_mapSlots g,
      Group.stripAll_mapSlotsOfAll gs, Group.mapSlotsOfAll]

end

end Strip

mutual

theorem Element.nodes_strip :
    ∀ e : Element, e.strip.slots.filterMap Slot.node? = e.slots.filterMap Slot.node?
  | .block _ => rfl
  | .optional g => Group.nodes_strip g
  | .union gs => Group.nodes_stripAll gs
  | .minus g => Group.nodes_strip g
  | .subQuery _ _ g _ => by
    simp only [Element.strip, Element.slots, List.filterMap_append, Group.nodes_strip g]
  | .bind _ _ => by
    simp only [Element.strip, Element.slots, List.filterMap_append]
    rfl
  | .filter _ => rfl

/-- What is stripped holds no blank nodes. -/
theorem Group.nodes_strip : ∀ g : List Element,
    (Group.slots (Group.strip g)).filterMap Slot.node? = (Group.slots g).filterMap Slot.node?
  | [] => rfl
  | e :: g => by
    rw [Group.strip, Group.slots, List.filterMap_append]
    split
    · rename_i h
      have he : e.slots = [] := by
        rw [Element.eq_block_nil_of_isEmptyBlock h]
        rfl
      rw [he, List.filterMap_nil, List.nil_append, Group.nodes_strip g]
    · rw [Group.slots, List.filterMap_append, Element.nodes_strip e, Group.nodes_strip g]

theorem Group.nodes_stripAll : ∀ gs : List (List Element),
    (Group.slotsOfAll (Group.stripAll gs)).filterMap Slot.node? =
      (Group.slotsOfAll gs).filterMap Slot.node?
  | [] => rfl
  | g :: gs => by
    rw [Group.stripAll, Group.slotsOfAll, Group.slotsOfAll, List.filterMap_append,
      List.filterMap_append, Group.nodes_strip g, Group.nodes_stripAll gs]

end

/-! ## What is put in the place of values -/

theorem Term.node?_effective (t : Term) : t.effective.node? = t.node? := by
  induction t with
  | bound name value ih => exact ih
  | _ => rfl

theorem Slot.node?_map_normal (s : Slot) : (s.map .normal).node? = s.node? := by
  cases s with
  | term t => exact Term.node?_effective t
  | projected v =>
    obtain ⟨name, _ | value⟩ := v
    · rfl
    · exact Term.node?_effective value
  | target v => rfl

/-- A pattern and its normal form have the same blank nodes at the same places. -/
theorem Group.nodes_normal (g : Group) : g.normal.nodes = g.nodes := by
  rw [nodes, nodes, normal, slots_mapSlots, List.filterMap_map, ← nodes_strip g]
  exact congrArg (List.filterMap · _) (funext Slot.node?_map_normal)

theorem Term.effective_mapLabel (f : String → String) (t : Term) :
    (t.mapLabel f).effective = t.effective.mapLabel f := by
  induction t with
  | bound name value ih => exact ih
  | _ => rfl

theorem Group.normal_mapLabels (f : String → String) (g : Group) :
    (g.mapLabels f).normal = g.normal.mapLabels f := by
  rw [normal, normal, mapLabels, mapLabels, strip_mapSlots, mapSlots_mapSlots, mapSlots_mapSlots]
  refine mapSlots_congr _ fun s _ => ?_
  cases s with
  | term t => exact congrArg Slot.term (Term.effective_mapLabel f t)
  | projected v =>
    obtain ⟨name, _ | value⟩ := v
    · rfl
    · exact congrArg (Slot.projected ⟨name, some ·⟩) (Term.effective_mapLabel f value)
  | target v => rfl

/-- Values that are put in the place of their variables are those of the normal form. -/
theorem Group.normal_effective (g : Group) : g.effective.normal = g.normal := by
  rw [normal, normal, effective, strip_mapSlots, mapSlots_mapSlots]
  refine mapSlots_congr _ fun s _ => ?_
  cases s with
  | term t => exact congrArg Slot.term t.effective_effective
  | projected v => rfl
  | target v => rfl

end GraphPattern
