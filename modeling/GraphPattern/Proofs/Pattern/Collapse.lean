import GraphPattern.Pattern.Substitution

/-!
# Removing computed variables

`Group.withoutBinds` removes the `BIND`s of one name at every depth. What is left has slots of the
group only and no target of the name (`Group.mem_slots_withoutBinds`); without such a target there
is nothing to do (`Group.withoutBinds_eq_self`). So a second removal does nothing, removals of two
names can be made in either order (`Group.withoutBinds_comm`), and it does not matter whether slots
are replaced before or after (`Group.withoutBinds_mapSlots`).
-/

namespace GraphPattern

/-! ## Groups that lose all elements -/

namespace Group

@[simp] theorem refill_self (g : Group) : refill g g = g := by
  cases g <;> rfl

@[simp] theorem refill_cons_right (g : Group) (e : Element) (h : Group) :
    refill g (e :: h) = e :: h := rfl

/-- The empty block that stands in has no slots. -/
@[simp] theorem slots_refill (g h : Group) : slots (refill g h) = slots h := by
  cases h with
  | nil => cases g <;> rfl
  | cons e h => rw [refill_cons_right]

theorem mapSlots_refill (m : SlotMap) (g h : Group) :
    mapSlots m (refill g h) = refill (mapSlots m g) (mapSlots m h) := by
  cases h with
  | nil => cases g <;> rfl
  | cons e h => simp only [refill_cons_right, mapSlots]

end Group

/-! ## Elements that are removed -/

@[simp] theorem Element.isBindOf_mapSlots (m : SlotMap) (name : String) (e : Element) :
    (e.mapSlots m).isBindOf name = e.isBindOf name := by
  cases e <;> rfl

@[simp] theorem Element.isBindOf_withoutBinds (name other : String) (e : Element) :
    (e.withoutBinds other).isBindOf name = e.isBindOf name := by
  cases e <;> rfl

/-- An element is removed only if its target has the name. -/
theorem Element.isBindOf_eq_false {name : String} {e : Element}
    (h : ∀ s ∈ e.slots, s.isTargetOf name = false) : e.isBindOf name = false := by
  cases e with
  | bind x v => exact h (.target v) (by simp [Element.slots])
  | _ => rfl

theorem Group.otherElements_cons_of_isBindOf {name : String} {e : Element}
    (h : e.isBindOf name = true) (g : Group) :
    Group.otherElements name (e :: g) = Group.otherElements name g := by
  rw [Group.otherElements, if_pos h]

theorem Group.otherElements_cons_of_not_isBindOf {name : String} {e : Element}
    (h : e.isBindOf name = false) (g : Group) :
    Group.otherElements name (e :: g) = e.withoutBinds name :: Group.otherElements name g := by
  rw [Group.otherElements, if_neg (by simp [h])]

/-! ## The slots that are left -/

section Slots

variable {name : String} {s : Slot}

mutual

theorem Element.mem_slots_withoutBinds : ∀ e : Element, e.isBindOf name = false →
    s ∈ (e.withoutBinds name).slots → s ∈ e.slots ∧ s.isTargetOf name = false
  | .block ts, _, hs => by
    refine ⟨hs, ?_⟩
    obtain ⟨t, _, rfl⟩ := List.mem_map.mp hs
    rfl
  | .optional g, _, hs => by
    simp only [Element.withoutBinds, Element.slots, Group.slots_refill] at hs ⊢
    exact Group.mem_slots_otherElements g hs
  | .union gs, _, hs => Group.mem_slotsOfAll_withoutBindsAll gs hs
  | .minus g, _, hs => by
    simp only [Element.withoutBinds, Element.slots, Group.slots_refill] at hs ⊢
    exact Group.mem_slots_otherElements g hs
  | .subQuery _ vs g _, _, hs => by
    simp only [Element.withoutBinds, Element.slots, Group.slots_refill, List.mem_append] at hs ⊢
    rcases hs with hs | hs
    · obtain ⟨v, _, rfl⟩ := List.mem_map.mp hs
      exact ⟨.inl hs, rfl⟩
    · obtain ⟨hmem, hname⟩ := Group.mem_slots_otherElements g hs
      exact ⟨.inr hmem, hname⟩
  | .bind e v, h, hs => by
    refine ⟨hs, ?_⟩
    rcases List.mem_append.mp hs with hs | hs
    · obtain ⟨t, _, rfl⟩ := List.mem_map.mp hs
      rfl
    · -- the element itself was left, so its target has another name
      rw [List.mem_singleton.mp hs]
      exact h
  | .filter e, _, hs => by
    refine ⟨hs, ?_⟩
    obtain ⟨t, _, rfl⟩ := List.mem_map.mp hs
    rfl

theorem Group.mem_slots_otherElements : ∀ g : List Element,
    s ∈ Group.slots (Group.otherElements name g) → s ∈ Group.slots g ∧ s.isTargetOf name = false
  | [], hs => by simp [Group.otherElements, Group.slots] at hs
  | e :: g, hs => by
    cases he : e.isBindOf name with
    | true =>
      rw [Group.otherElements_cons_of_isBindOf he] at hs
      obtain ⟨hmem, hname⟩ := Group.mem_slots_otherElements g hs
      exact ⟨List.mem_append_right _ hmem, hname⟩
    | false =>
      rw [Group.otherElements_cons_of_not_isBindOf he, Group.slots, List.mem_append] at hs
      rcases hs with hs | hs
      · obtain ⟨hmem, hname⟩ := Element.mem_slots_withoutBinds e he hs
        exact ⟨List.mem_append_left _ hmem, hname⟩
      · obtain ⟨hmem, hname⟩ := Group.mem_slots_otherElements g hs
        exact ⟨List.mem_append_right _ hmem, hname⟩

theorem Group.mem_slotsOfAll_withoutBindsAll : ∀ gs : List (List Element),
    s ∈ Group.slotsOfAll (Group.withoutBindsAll name gs) →
      s ∈ Group.slotsOfAll gs ∧ s.isTargetOf name = false
  | [], hs => by simp [Group.withoutBindsAll, Group.slotsOfAll] at hs
  | g :: gs, hs => by
    rw [Group.withoutBindsAll, Group.slotsOfAll, Group.slots_refill, List.mem_append] at hs
    rcases hs with hs | hs
    · obtain ⟨hmem, hname⟩ := Group.mem_slots_otherElements g hs
      exact ⟨List.mem_append_left _ hmem, hname⟩
    · obtain ⟨hmem, hname⟩ := Group.mem_slotsOfAll_withoutBindsAll gs hs
      exact ⟨List.mem_append_right _ hmem, hname⟩

end

/-- What is left has slots of the group, and no target of the name. -/
theorem Group.mem_slots_withoutBinds {g : Group} (hs : s ∈ slots (withoutBinds name g)) :
    s ∈ slots g ∧ s.isTargetOf name = false := by
  rw [withoutBinds, slots_refill] at hs
  exact mem_slots_otherElements g hs

end Slots

/-! ## Nothing to remove -/

section Absent

variable {name : String}

mutual

theorem Element.withoutBinds_eq_self : ∀ e : Element,
    (∀ s ∈ e.slots, s.isTargetOf name = false) → e.withoutBinds name = e
  | .block ts, _ => rfl
  | .optional g, h => by
    rw [Element.withoutBinds, Group.otherElements_eq_self g (by simpa [Element.slots] using h),
      Group.refill_self]
  | .union gs, h => by
    rw [Element.withoutBinds, Group.withoutBindsAll_eq_self gs (by simpa [Element.slots] using h)]
  | .minus g, h => by
    rw [Element.withoutBinds, Group.otherElements_eq_self g (by simpa [Element.slots] using h),
      Group.refill_self]
  | .subQuery d vs g p, h => by
    simp only [Element.slots, List.forall_mem_append] at h
    rw [Element.withoutBinds, Group.otherElements_eq_self g h.2, Group.refill_self]
  | .bind e v, _ => rfl
  | .filter e, _ => rfl

theorem Group.otherElements_eq_self : ∀ g : List Element,
    (∀ s ∈ Group.slots g, s.isTargetOf name = false) → Group.otherElements name g = g
  | [], _ => rfl
  | e :: g, h => by
    simp only [Group.slots, List.forall_mem_append] at h
    rw [Group.otherElements_cons_of_not_isBindOf (Element.isBindOf_eq_false h.1),
      Element.withoutBinds_eq_self e h.1, Group.otherElements_eq_self g h.2]

theorem Group.withoutBindsAll_eq_self : ∀ gs : List (List Element),
    (∀ s ∈ Group.slotsOfAll gs, s.isTargetOf name = false) → Group.withoutBindsAll name gs = gs
  | [], _ => rfl
  | g :: gs, h => by
    simp only [Group.slotsOfAll, List.forall_mem_append] at h
    rw [Group.withoutBindsAll, Group.otherElements_eq_self g h.1, Group.refill_self,
      Group.withoutBindsAll_eq_self gs h.2]

end

/-- A group without a target of the name stays as it is. -/
theorem Group.withoutBinds_eq_self {g : Group} (h : ∀ s ∈ slots g, s.isTargetOf name = false) :
    withoutBinds name g = g := by
  rw [withoutBinds, otherElements_eq_self g h, refill_self]

/-- A second removal does nothing. -/
@[simp] theorem Group.withoutBinds_idem (name : String) (g : Group) :
    withoutBinds name (withoutBinds name g) = withoutBinds name g :=
  withoutBinds_eq_self fun _ hs => (mem_slots_withoutBinds hs).2

end Absent

/-! ## Removals of two names -/

/-- A group that one of two removals empties, or only both together, ends as one empty block either
way. -/
theorem Group.withoutBinds_withoutBinds (a b : String) (g : Group) :
    withoutBinds a (withoutBinds b g) = refill g (otherElements a (otherElements b g)) := by
  cases g with
  | nil => rfl
  | cons e g =>
    unfold withoutBinds
    cases hb : otherElements b (e :: g) with
    -- the first removal leaves an empty block, which the second does not touch
    | nil => rfl
    | cons f h =>
      rw [refill_cons_right]
      cases otherElements a (f :: h) with
      | nil => rfl
      | cons _ _ => rfl

theorem Group.withoutBinds_comm_of {a b : String} {g : Group}
    (h : otherElements a (otherElements b g) = otherElements b (otherElements a g)) :
    withoutBinds a (withoutBinds b g) = withoutBinds b (withoutBinds a g) := by
  rw [withoutBinds_withoutBinds, withoutBinds_withoutBinds, h]

section Commute

variable (a b : String)

mutual

theorem Element.withoutBinds_comm :
    ∀ e : Element, (e.withoutBinds b).withoutBinds a = (e.withoutBinds a).withoutBinds b
  | .block _ => rfl
  | .optional g =>
    congrArg Element.optional (Group.withoutBinds_comm_of (Group.otherElements_comm g))
  | .union gs => congrArg Element.union (Group.withoutBindsAll_comm gs)
  | .minus g => congrArg Element.minus (Group.withoutBinds_comm_of (Group.otherElements_comm g))
  | .subQuery d vs g p =>
    congrArg (Element.subQuery d vs · p) (Group.withoutBinds_comm_of (Group.otherElements_comm g))
  | .bind _ _ => rfl
  | .filter _ => rfl

theorem Group.otherElements_comm : ∀ g : List Element,
    Group.otherElements a (Group.otherElements b g) =
      Group.otherElements b (Group.otherElements a g)
  | [] => rfl
  | e :: g => by
    -- what is removed for one name is the same before and after the removals for the other
    cases ha : e.isBindOf a <;> cases hb : e.isBindOf b <;>
      simp only [Group.otherElements, ha, hb, Element.isBindOf_withoutBinds, if_true, if_false,
        Bool.false_eq_true, Group.otherElements_comm g, Element.withoutBinds_comm e]

theorem Group.withoutBindsAll_comm : ∀ gs : List (List Element),
    Group.withoutBindsAll a (Group.withoutBindsAll b gs) =
      Group.withoutBindsAll b (Group.withoutBindsAll a gs)
  | [] => rfl
  | g :: gs => by
    show Group.withoutBinds a (Group.withoutBinds b g) :: _ =
      Group.withoutBinds b (Group.withoutBinds a g) :: _
    rw [Group.withoutBinds_comm_of (Group.otherElements_comm g), Group.withoutBindsAll_comm gs]

end

/-- The `BIND`s of two names can be removed in either order. -/
theorem Group.withoutBinds_comm (g : Group) :
    withoutBinds a (withoutBinds b g) = withoutBinds b (withoutBinds a g) :=
  withoutBinds_comm_of (otherElements_comm a b g)

end Commute

/-! ## Removal and replacement -/

section MapSlots

variable (name : String) (m : SlotMap)

mutual

theorem Element.withoutBinds_mapSlots :
    ∀ e : Element, (e.mapSlots m).withoutBinds name = (e.withoutBinds name).mapSlots m
  | .block _ => rfl
  | .optional g => by
    simp only [Element.mapSlots, Element.withoutBinds, Group.otherElements_mapSlots g,
      Group.mapSlots_refill]
  | .union gs => by
    simp only [Element.mapSlots, Element.withoutBinds, Group.withoutBindsAll_mapSlotsOfAll gs]
  | .minus g => by
    simp only [Element.mapSlots, Element.withoutBinds, Group.otherElements_mapSlots g,
      Group.mapSlots_refill]
  | .subQuery _ _ g _ => by
    simp only [Element.mapSlots, Element.withoutBinds, Group.otherElements_mapSlots g,
      Group.mapSlots_refill]
  | .bind _ _ => rfl
  | .filter _ => rfl

theorem Group.otherElements_mapSlots : ∀ g : List Element,
    Group.otherElements name (Group.mapSlots m g) = Group.mapSlots m (Group.otherElements name g)
  | [] => rfl
  | e :: g => by
    cases h : e.isBindOf name with
    | true =>
      rw [Group.mapSlots, Group.otherElements_cons_of_isBindOf (by simpa using h),
        Group.otherElements_cons_of_isBindOf h, Group.otherElements_mapSlots g]
    | false =>
      rw [Group.mapSlots, Group.otherElements_cons_of_not_isBindOf (by simpa using h),
        Group.otherElements_cons_of_not_isBindOf h, Group.mapSlots,
        Element.withoutBinds_mapSlots e, Group.otherElements_mapSlots g]

theorem Group.withoutBindsAll_mapSlotsOfAll : ∀ gs : List (List Element),
    Group.withoutBindsAll name (Group.mapSlotsOfAll m gs) =
      Group.mapSlotsOfAll m (Group.withoutBindsAll name gs)
  | [] => rfl
  | g :: gs => by
    simp only [Group.mapSlotsOfAll, Group.withoutBindsAll, Group.otherElements_mapSlots g,
      Group.mapSlots_refill, Group.withoutBindsAll_mapSlotsOfAll gs]

end

/-- Which elements are removed does not depend on what the slots hold. -/
theorem Group.withoutBinds_mapSlots (g : Group) :
    withoutBinds name (mapSlots m g) = mapSlots m (withoutBinds name g) := by
  rw [withoutBinds, withoutBinds, otherElements_mapSlots, mapSlots_refill]

end MapSlots

end GraphPattern
