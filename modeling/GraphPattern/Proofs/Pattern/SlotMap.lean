import GraphPattern.Pattern.Slots

/-!
# Slot maps

What becomes of a group depends only on what becomes of its slots (`Group.mapSlots_congr`), and two
replacements one after the other are one replacement (`Group.mapSlots_mapSlots`). Every pass over a
pattern is a slot map, so laws of the passes reduce to laws of what they do to a single slot.
-/

namespace GraphPattern

/-- The replacement that makes `n` first and `m` after it. -/
def SlotMap.comp (m n : SlotMap) : SlotMap where
  term t := m.term (n.term t)
  projected v := m.projected (n.projected v)

/-- The replacement that leaves every slot as it is. -/
def SlotMap.id : SlotMap where
  term t := t
  projected v := v

@[simp] theorem Slot.map_id (s : Slot) : s.map .id = s := by
  cases s <;> rfl

/-! ## Slots that become the same -/

section Congruence

variable {f f' : Term → Term}

mutual

theorem Path.map_congr : ∀ p : Path, (∀ t ∈ p.terms, f t = f' t) → p.map f = p.map f'
  | .predicate t, h => by
    rw [Path.map, Path.map, h t (by simp [Path.terms])]
  | .sequence ps, h => by
    rw [Path.map, Path.map, Path.mapSteps_congr ps (by simpa [Path.terms] using h)]

theorem Path.mapSteps_congr : ∀ ps : List Path,
    (∀ t ∈ Path.termsOfSteps ps, f t = f' t) → Path.mapSteps f ps = Path.mapSteps f' ps
  | [], _ => rfl
  | p :: ps, h => by
    simp only [Path.termsOfSteps, List.forall_mem_append] at h
    rw [Path.mapSteps, Path.mapSteps, Path.map_congr p h.1, Path.mapSteps_congr ps h.2]

end

mutual

theorem Expression.map_congr :
    ∀ e : Expression, (∀ t ∈ e.terms, f t = f' t) → e.map f = e.map f'
  | .term t, h => by
    rw [Expression.map, Expression.map, h t (by simp [Expression.terms])]
  | .binary o l r, h => by
    simp only [Expression.terms, List.forall_mem_append] at h
    rw [Expression.map, Expression.map, Expression.map_congr l h.1, Expression.map_congr r h.2]
  | .unary o e, h => by
    rw [Expression.map, Expression.map, Expression.map_congr e (by simpa [Expression.terms] using h)]
  | .call c es, h => by
    rw [Expression.map, Expression.map,
      Expression.mapAll_congr es (by simpa [Expression.terms] using h)]
  | .isIn e es n, h => by
    simp only [Expression.terms, List.forall_mem_append] at h
    rw [Expression.map, Expression.map, Expression.map_congr e h.1, Expression.mapAll_congr es h.2]

theorem Expression.mapAll_congr : ∀ es : List Expression,
    (∀ t ∈ Expression.termsOfAll es, f t = f' t) → Expression.mapAll f es = Expression.mapAll f' es
  | [], _ => rfl
  | e :: es, h => by
    simp only [Expression.termsOfAll, List.forall_mem_append] at h
    rw [Expression.mapAll, Expression.mapAll, Expression.map_congr e h.1,
      Expression.mapAll_congr es h.2]

end

theorem Triple.map_congr {t : Triple} (h : ∀ x ∈ t.terms, f x = f' x) : t.map f = t.map f' := by
  have hs : f t.subject = f' t.subject := h _ (by simp [Triple.terms])
  have ho : f t.object = f' t.object := h _ (by simp [Triple.terms])
  have hp : t.predicate.map f = t.predicate.map f' :=
    Path.map_congr _ fun x hx => h x (by simp [Triple.terms, hx])
  rw [Triple.map, Triple.map, hs, ho, hp]

end Congruence

/-- Terms that become the same as slots become the same. -/
theorem Slot.term_eq_of_map_eq {m n : SlotMap} {ts : List Term}
    (h : ∀ s ∈ ts.map Slot.term, s.map m = s.map n) : ∀ t ∈ ts, m.term t = n.term t := by
  intro t ht
  exact Slot.term.inj (h (.term t) (List.mem_map_of_mem ht))

mutual

theorem Element.mapSlots_congr {m n : SlotMap} :
    ∀ e : Element, (∀ s ∈ e.slots, s.map m = s.map n) → e.mapSlots m = e.mapSlots n
  | .block ts, h => by
    have ht := Slot.term_eq_of_map_eq h
    rw [Element.mapSlots, Element.mapSlots]
    refine congrArg Element.block (List.map_congr_left fun t hmem => Triple.map_congr fun x hx => ?_)
    exact ht x (List.mem_flatMap_of_mem hmem hx)
  | .optional g, h => by
    rw [Element.mapSlots, Element.mapSlots, Group.mapSlots_congr g (by simpa [Element.slots] using h)]
  | .union gs, h => by
    rw [Element.mapSlots, Element.mapSlots,
      Group.mapSlotsOfAll_congr gs (by simpa [Element.slots] using h)]
  | .minus g, h => by
    rw [Element.mapSlots, Element.mapSlots, Group.mapSlots_congr g (by simpa [Element.slots] using h)]
  | .subQuery d vs g p, h => by
    simp only [Element.slots, List.forall_mem_append] at h
    have hv : vs.map m.projected = vs.map n.projected :=
      List.map_congr_left fun v hv => Slot.projected.inj (h.1 (.projected v) (List.mem_map_of_mem hv))
    rw [Element.mapSlots, Element.mapSlots, hv, Group.mapSlots_congr g h.2]
  | .bind e v, h => by
    simp only [Element.slots, List.forall_mem_append] at h
    rw [Element.mapSlots, Element.mapSlots, Expression.map_congr e (Slot.term_eq_of_map_eq h.1)]
  | .filter e, h => by
    rw [Element.mapSlots, Element.mapSlots, Expression.map_congr e (Slot.term_eq_of_map_eq h)]

/-- Replacements that agree on the slots of a group do the same to it. -/
theorem Group.mapSlots_congr {m n : SlotMap} : ∀ g : List Element,
    (∀ s ∈ Group.slots g, s.map m = s.map n) → Group.mapSlots m g = Group.mapSlots n g
  | [], _ => rfl
  | e :: g, h => by
    simp only [Group.slots, List.forall_mem_append] at h
    rw [Group.mapSlots, Group.mapSlots, Element.mapSlots_congr e h.1, Group.mapSlots_congr g h.2]

theorem Group.mapSlotsOfAll_congr {m n : SlotMap} : ∀ gs : List (List Element),
    (∀ s ∈ Group.slotsOfAll gs, s.map m = s.map n) →
      Group.mapSlotsOfAll m gs = Group.mapSlotsOfAll n gs
  | [], _ => rfl
  | g :: gs, h => by
    simp only [Group.slotsOfAll, List.forall_mem_append] at h
    rw [Group.mapSlotsOfAll, Group.mapSlotsOfAll, Group.mapSlots_congr g h.1,
      Group.mapSlotsOfAll_congr gs h.2]

end

/-! ## One replacement after another -/

section Composition

variable (f f' : Term → Term)

mutual

theorem Path.map_map : ∀ p : Path, (p.map f').map f = p.map fun t => f (f' t)
  | .predicate t => rfl
  | .sequence ps => by rw [Path.map, Path.map, Path.map, Path.mapSteps_mapSteps ps]

theorem Path.mapSteps_mapSteps : ∀ ps : List Path,
    Path.mapSteps f (Path.mapSteps f' ps) = Path.mapSteps (fun t => f (f' t)) ps
  | [] => rfl
  | p :: ps => by
    rw [Path.mapSteps, Path.mapSteps, Path.mapSteps, Path.map_map p, Path.mapSteps_mapSteps ps]

end

mutual

theorem Expression.map_map : ∀ e : Expression, (e.map f').map f = e.map fun t => f (f' t)
  | .term t => rfl
  | .binary o l r => by simp only [Expression.map, Expression.map_map l, Expression.map_map r]
  | .unary o e => by simp only [Expression.map, Expression.map_map e]
  | .call c es => by simp only [Expression.map, Expression.mapAll_mapAll es]
  | .isIn e es n => by simp only [Expression.map, Expression.map_map e, Expression.mapAll_mapAll es]

theorem Expression.mapAll_mapAll : ∀ es : List Expression,
    Expression.mapAll f (Expression.mapAll f' es) = Expression.mapAll (fun t => f (f' t)) es
  | [] => rfl
  | e :: es => by simp only [Expression.mapAll, Expression.map_map e, Expression.mapAll_mapAll es]

end

theorem Triple.map_map (t : Triple) : (t.map f').map f = t.map fun x => f (f' x) := by
  simp only [Triple.map, Path.map_map]

end Composition

mutual

theorem Element.mapSlots_mapSlots (m n : SlotMap) :
    ∀ e : Element, (e.mapSlots n).mapSlots m = e.mapSlots (m.comp n)
  | .block ts => by
    simp only [Element.mapSlots, List.map_map]
    exact congrArg Element.block (List.map_congr_left fun t _ => Triple.map_map _ _ t)
  | .optional g => by simp only [Element.mapSlots, Group.mapSlots_mapSlots m n g]
  | .union gs => by simp only [Element.mapSlots, Group.mapSlotsOfAll_mapSlotsOfAll m n gs]
  | .minus g => by simp only [Element.mapSlots, Group.mapSlots_mapSlots m n g]
  | .subQuery d vs g p => by
    simp only [Element.mapSlots, Group.mapSlots_mapSlots m n g, List.map_map]
    rfl
  | .bind e v => by simp only [Element.mapSlots, Expression.map_map, SlotMap.comp]
  | .filter e => by simp only [Element.mapSlots, Expression.map_map, SlotMap.comp]

/-- Two replacements one after the other are one. -/
theorem Group.mapSlots_mapSlots (m n : SlotMap) :
    ∀ g : List Element, Group.mapSlots m (Group.mapSlots n g) = Group.mapSlots (m.comp n) g
  | [] => rfl
  | e :: g => by
    simp only [Group.mapSlots, Element.mapSlots_mapSlots m n e, Group.mapSlots_mapSlots m n g]

theorem Group.mapSlotsOfAll_mapSlotsOfAll (m n : SlotMap) : ∀ gs : List (List Element),
    Group.mapSlotsOfAll m (Group.mapSlotsOfAll n gs) = Group.mapSlotsOfAll (m.comp n) gs
  | [] => rfl
  | g :: gs => by
    simp only [Group.mapSlotsOfAll, Group.mapSlots_mapSlots m n g,
      Group.mapSlotsOfAll_mapSlotsOfAll m n gs]

end

/-! ## Slots that stay -/

mutual

theorem Path.map_id : ∀ p : Path, (p.map fun t => t) = p
  | .predicate t => rfl
  | .sequence ps => by rw [Path.map, Path.mapSteps_id ps]

theorem Path.mapSteps_id : ∀ ps : List Path, Path.mapSteps (fun t => t) ps = ps
  | [] => rfl
  | p :: ps => by rw [Path.mapSteps, Path.map_id p, Path.mapSteps_id ps]

end

mutual

theorem Expression.map_id : ∀ e : Expression, (e.map fun t => t) = e
  | .term t => rfl
  | .binary o l r => by rw [Expression.map, Expression.map_id l, Expression.map_id r]
  | .unary o e => by rw [Expression.map, Expression.map_id e]
  | .call c es => by rw [Expression.map, Expression.mapAll_id es]
  | .isIn e es n => by rw [Expression.map, Expression.map_id e, Expression.mapAll_id es]

theorem Expression.mapAll_id : ∀ es : List Expression, Expression.mapAll (fun t => t) es = es
  | [] => rfl
  | e :: es => by rw [Expression.mapAll, Expression.map_id e, Expression.mapAll_id es]

end

theorem Triple.map_id (t : Triple) : (t.map fun x => x) = t := by
  rw [Triple.map, Path.map_id]

mutual

theorem Element.mapSlots_id : ∀ e : Element, e.mapSlots .id = e
  | .block ts => by
    rw [Element.mapSlots]
    exact congrArg Element.block (List.map_id'' Triple.map_id ts)
  | .optional g => by rw [Element.mapSlots, Group.mapSlots_id g]
  | .union gs => by rw [Element.mapSlots, Group.mapSlotsOfAll_id gs]
  | .minus g => by rw [Element.mapSlots, Group.mapSlots_id g]
  | .subQuery d vs g p => by
    have hv : vs.map SlotMap.id.projected = vs := List.map_id'' (fun _ => rfl) vs
    rw [Element.mapSlots, Group.mapSlots_id g, hv]
  | .bind e v => by rw [Element.mapSlots, SlotMap.id, Expression.map_id]
  | .filter e => by rw [Element.mapSlots, SlotMap.id, Expression.map_id]

theorem Group.mapSlots_id : ∀ g : List Element, Group.mapSlots .id g = g
  | [] => rfl
  | e :: g => by rw [Group.mapSlots, Element.mapSlots_id e, Group.mapSlots_id g]

theorem Group.mapSlotsOfAll_id : ∀ gs : List (List Element), Group.mapSlotsOfAll .id gs = gs
  | [] => rfl
  | g :: gs => by rw [Group.mapSlotsOfAll, Group.mapSlots_id g, Group.mapSlotsOfAll_id gs]

end

/-- A replacement that leaves each slot of a group as it is leaves the group as it is. -/
theorem Group.mapSlots_eq_self {m : SlotMap} {g : Group} (h : ∀ s ∈ slots g, s.map m = s) :
    mapSlots m g = g := by
  have hid : mapSlots m g = mapSlots .id g :=
    mapSlots_congr g fun s hs => by rw [h s hs, Slot.map_id]
  rw [hid, mapSlots_id]

end GraphPattern
