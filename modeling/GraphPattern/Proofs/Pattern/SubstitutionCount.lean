import GraphPattern.Proofs.Pattern.Pass
import GraphPattern.Proofs.Pattern.Substitution

/-!
# What a substitution counts

The pass that substitutes makes the group that `Group.substitute` gives, and its counts tell what it
did (`Group.substitutionPass_counts`): the slots of the name are all written, and the `BIND`s of the
name are what is missing from the scopes of the group afterwards, apart from the empty blocks that
stand in where nothing else is left.
-/

namespace GraphPattern

variable {name : String} {value : Option Term}

/-! ## Slots that are written -/

theorem Slot.isOf_eq (name : String) (s : Slot) : s.isOf name = s.var?.any (·.name = name) := by
  cases s <;> rfl

theorem Variable.name_resolve (name : String) (value : Option Term) (v : Variable) :
    (v.resolve name value).name = v.name := by
  unfold resolve
  split <;> rfl

/-- A slot that is written stays a slot of its name. -/
theorem Slot.isOf_map_resolve (s : Slot) :
    (s.map (.resolve name value)).isOf name = s.isOf name := by
  rw [isOf_eq, isOf_eq, var?_map_resolve]
  cases s.var? with
  | none => rfl
  | some v => rw [Option.map_some, Option.any_some, Option.any_some, Variable.name_resolve]

/-- A slot of another name is left as it is. -/
theorem Slot.map_resolve_of_not_isOf {s : Slot} (h : s.isOf name = false) :
    s.map (.resolve name value) = s := by
  refine map_resolve_eq_self fun v hv => ?_
  rw [isOf_eq, hv] at h
  rw [Variable.resolve, if_neg (by simpa using h)]

/-! ## The pass at one place -/

theorem Variable.substitutionPass_eq (v : Variable) : v.substitutionPass name value =
    ⟨⟨if v.name = name then 1 else 0, 0⟩, v.resolve name value⟩ := by
  rw [substitutionPass, resolve]
  split <;> rfl

theorem Term.substitutionPass_eq (t : Term) : t.substitutionPass name value =
    ⟨⟨if (Slot.term t).isOf name then 1 else 0, 0⟩, t.resolve name value⟩ := by
  rw [substitutionPass, resolve, Slot.isOf]
  cases t.asVariable with
  | none => rfl
  | some v =>
    show (v.substitutionPass name value).map ofVariable = _
    rw [Variable.substitutionPass_eq]
    simp [Counted.map]

theorem Pass.slotMap_substitution (name : String) (value : Option Term) :
    (Pass.substitution name value).slotMap = .resolve name value := by
  refine congrArg₂ SlotMap.mk (funext fun t => ?_) (funext fun v => ?_)
  · exact congrArg Counted.value t.substitutionPass_eq
  · exact congrArg Counted.value v.substitutionPass_eq

theorem Pass.weight_substitution (name : String) (value : Option Term) (s : Slot) :
    (Pass.substitution name value).weight s = ⟨if s.isOf name then 1 else 0, 0⟩ := by
  cases s with
  | term t => exact congrArg Counted.count t.substitutionPass_eq
  | projected v =>
    refine (congrArg Counted.count v.substitutionPass_eq).trans ?_
    simp [Slot.isOf]
  | target v => rfl

theorem Pass.keepGroup_substitution (name : String) (value : Option Term) (g : Group) :
    (Pass.substitution name value).keepGroup g = g.collapse name value := by
  cases value <;> rfl

namespace Group

/-- The pass makes the group that the substitution gives. -/
theorem value_substitutionPass (name : String) (value : Option Term) (g : Group) :
    (g.substitutionPass name value).value = g.substitute name value := by
  rw [substitutionPass, value_pass, Pass.slotMap_substitution, Pass.keepGroup_substitution]
  rfl

/-! ## Elements that are removed -/

theorem otherElements_eq_nil_iff {g : Group} :
    otherElements name g = [] ↔ g.all (Element.isBindOf name) = true := by
  induction g with
  | nil => simp [otherElements]
  | cons e g ih =>
    cases he : e.isBindOf name with
    | true => rw [otherElements_cons_of_isBindOf he, ih, List.all_cons, he, Bool.true_and]
    | false => simp [otherElements_cons_of_not_isBindOf he, he]

theorem length_otherElements (name : String) (g : Group) :
    (otherElements name g).length + g.countP (Element.isBindOf name) = g.length := by
  induction g with
  | nil => rfl
  | cons e g ih =>
    cases he : e.isBindOf name with
    | true =>
      rw [otherElements_cons_of_isBindOf he, List.countP_cons_of_pos he, List.length_cons]
      omega
    | false =>
      rw [otherElements_cons_of_not_isBindOf he, List.countP_cons_of_neg (by simp [he]),
        List.length_cons, List.length_cons]
      omega

/-- Whether a group has elements, and all of them compute the variable of this name. -/
def losesAll (name : String) (g : Group) : Bool := !g.isEmpty && g.all (Element.isBindOf name)

/-- An empty block comes in for the elements of a group that loses all of them. -/
theorem withoutBinds_of_losesAll {g : Group} (h : g.losesAll name = true) :
    withoutBinds name g = [.block []] := by
  obtain ⟨hne, hall⟩ := Bool.and_eq_true_iff.mp h
  rw [withoutBinds, otherElements_eq_nil_iff.mpr hall, refill, hne]
  rfl

theorem withoutBinds_of_not_losesAll {g : Group} (h : g.losesAll name = false) :
    withoutBinds name g = otherElements name g := by
  cases hothers : otherElements name g with
  | nil =>
    rw [losesAll, otherElements_eq_nil_iff.mp hothers, Bool.and_true] at h
    rw [withoutBinds, hothers, refill, h]
    rfl
  | cons e h => rw [withoutBinds, hothers, refill_cons_right]

theorem length_withoutBinds (name : String) (g : Group) :
    (withoutBinds name g).length + g.countP (Element.isBindOf name) =
      g.length + if g.losesAll name then 1 else 0 := by
  have hlength := length_otherElements name g
  cases h : g.losesAll name with
  | true =>
    obtain ⟨_, hall⟩ := Bool.and_eq_true_iff.mp h
    rw [otherElements_eq_nil_iff.mpr hall] at hlength
    rw [withoutBinds_of_losesAll h, if_pos rfl, ← hlength]
    simp
    omega
  | false =>
    rw [withoutBinds_of_not_losesAll h, hlength]
    rfl

/-! ## What is counted -/

theorem isMeasure_written : Counted.IsMeasure SubstitutionCount.written := ⟨rfl, fun _ _ => rfl⟩

theorem isMeasure_collapsed : Counted.IsMeasure SubstitutionCount.collapsed :=
  ⟨rfl, fun _ _ => rfl⟩

/-- The slots of the name are those that are left of the group with the `BIND`s. -/
theorem countP_isOf_substitute (name : String) (value : Option Term) (g : Group) :
    (slots (g.substitute name value)).countP (Slot.isOf name) =
      (slots (g.collapse name value)).countP (Slot.isOf name) := by
  rw [substitute, slots_mapSlots, List.countP_map]
  exact congrArg (List.countP · _) (funext fun s => s.isOf_map_resolve)

theorem written_substitutionPass (name : String) (value : Option Term) (g : Group) :
    (g.substitutionPass name value).count.written =
      (slots (g.substitute name value)).countP (Slot.isOf name) := by
  have hweight : ∀ s, ((Pass.substitution name value).weight s).written =
      if s.isOf name then 1 else 0 := by
    intro s
    rw [Pass.weight_substitution]
  rw [countP_isOf_substitute, substitutionPass, measure_pass _ isMeasure_written,
    Pass.keepGroup_substitution, Pass.total_eq_countP hweight]
  rfl

theorem collapsed_substitutionPass (name : String) (value : Option Term) (g : Group) :
    (g.substitutionPass name value).count.collapsed =
      if value.isSome then g.allElements.countP (Element.isBindOf name) else 0 := by
  have hnone : ∀ ss : List Slot,
      (Pass.substitution name value).total SubstitutionCount.collapsed ss = 0 := by
    intro ss
    simp [Pass.total, Pass.weight_substitution]
  rw [substitutionPass, measure_pass _ isMeasure_collapsed, hnone, Nat.zero_add]
  cases value with
  | none => simp [Pass.removes, Pass.substitution]
  | some t => exact Nat.mul_one _

end Group

/-! ## The scopes that are left -/

section MapSlots

variable (m : SlotMap)

mutual

theorem Element.scopes_mapSlots :
    ∀ e : Element, (e.mapSlots m).scopes = e.scopes.map (Group.mapSlots m)
  | .block _ => rfl
  | .optional g => congrArg (Group.mapSlots m g :: ·) (Group.innerScopes_mapSlots g)
  | .union gs => Group.scopesOfAll_mapSlotsOfAll gs
  | .minus g => congrArg (Group.mapSlots m g :: ·) (Group.innerScopes_mapSlots g)
  | .subQuery _ _ g _ => congrArg (Group.mapSlots m g :: ·) (Group.innerScopes_mapSlots g)
  | .bind _ _ => rfl
  | .filter _ => rfl

theorem Group.innerScopes_mapSlots : ∀ g : List Element,
    Group.innerScopes (Group.mapSlots m g) = (Group.innerScopes g).map (Group.mapSlots m)
  | [] => rfl
  | e :: g => by
    rw [Group.mapSlots, Group.innerScopes, Group.innerScopes, List.map_append,
      Element.scopes_mapSlots e, Group.innerScopes_mapSlots g]

theorem Group.scopesOfAll_mapSlotsOfAll : ∀ gs : List (List Element),
    Group.scopesOfAll (Group.mapSlotsOfAll m gs) = (Group.scopesOfAll gs).map (Group.mapSlots m)
  | [] => rfl
  | g :: gs => by
    rw [Group.mapSlotsOfAll, Group.scopesOfAll, Group.scopesOfAll, List.map_cons, List.map_append,
      Group.innerScopes_mapSlots g, Group.scopesOfAll_mapSlotsOfAll gs]

end

end MapSlots

/-- The empty block that stands in opens no group. -/
theorem Group.innerScopes_refill (g h : Group) :
    innerScopes (refill g h) = innerScopes h := by
  cases h with
  | nil => cases g <;> rfl
  | cons e h => rw [refill_cons_right]

section WithoutBinds

variable (name : String)

mutual

theorem Element.scopes_withoutBinds :
    ∀ e : Element, (e.withoutBinds name).scopes = e.scopes.map (Group.withoutBinds name)
  | .block _ => rfl
  | .optional g => by
    rw [Element.withoutBinds, Element.scopes, Element.scopes, Group.innerScopes_refill,
      Group.innerScopes_otherElements g]
    rfl
  | .union gs => Group.scopesOfAll_withoutBindsAll gs
  | .minus g => by
    rw [Element.withoutBinds, Element.scopes, Element.scopes, Group.innerScopes_refill,
      Group.innerScopes_otherElements g]
    rfl
  | .subQuery _ _ g _ => by
    rw [Element.withoutBinds, Element.scopes, Element.scopes, Group.innerScopes_refill,
      Group.innerScopes_otherElements g]
    rfl
  | .bind _ _ => rfl
  | .filter _ => rfl

theorem Group.innerScopes_otherElements : ∀ g : List Element,
    Group.innerScopes (Group.otherElements name g) =
      (Group.innerScopes g).map (Group.withoutBinds name)
  | [] => rfl
  | e :: g => by
    rw [Group.innerScopes, List.map_append, ← Group.innerScopes_otherElements g]
    cases he : e.isBindOf name with
    | true =>
      rw [Group.otherElements_cons_of_isBindOf he, Element.scopes_eq_nil_of_isBindOf he]
      rfl
    | false =>
      rw [Group.otherElements_cons_of_not_isBindOf he, Group.innerScopes,
        Element.scopes_withoutBinds e]

theorem Group.scopesOfAll_withoutBindsAll : ∀ gs : List (List Element),
    Group.scopesOfAll (Group.withoutBindsAll name gs) =
      (Group.scopesOfAll gs).map (Group.withoutBinds name)
  | [] => rfl
  | g :: gs => by
    rw [Group.withoutBindsAll, Group.scopesOfAll, Group.scopesOfAll, Group.innerScopes_refill,
      Group.innerScopes_otherElements g, Group.scopesOfAll_withoutBindsAll gs, List.map_cons,
      List.map_append]
    rfl

end

end WithoutBinds

mutual

theorem Element.countP_targets (name : String) : ∀ e : Element,
    e.slots.countP (Slot.isTargetOf name) =
      (if e.isBindOf name then 1 else 0) + e.scopes.flatten.countP (Element.isBindOf name)
  | .block ts => by simp [Element.slots, Element.scopes, Element.isBindOf, Slot.isTargetOf]
  | .optional g => (Group.countP_targets name g).trans (Nat.zero_add _).symm
  | .union gs => (Group.countP_targetsOfAll name gs).trans (Nat.zero_add _).symm
  | .minus g => (Group.countP_targets name g).trans (Nat.zero_add _).symm
  | .subQuery _ vs g _ => by
    have hnone : (vs.map Slot.projected).countP (Slot.isTargetOf name) = 0 := by
      simp [Slot.isTargetOf]
    rw [Element.slots, List.countP_append, hnone, Group.countP_targets name g]
    rfl
  | .bind e v => by simp [Element.slots, Element.scopes, Element.isBindOf, Slot.isTargetOf]
  | .filter e => by simp [Element.slots, Element.scopes, Element.isBindOf, Slot.isTargetOf]

/-- Each `BIND` of a group has one target, in whatever scope it stands. -/
theorem Group.countP_targets (name : String) : ∀ g : List Element,
    (Group.slots g).countP (Slot.isTargetOf name) =
      (Group.allElements g).countP (Element.isBindOf name)
  | [] => rfl
  | e :: g => by
    rw [Group.slots, List.countP_append, Element.countP_targets name e,
      Group.countP_targets name g, Group.countP_allElements_cons]

theorem Group.countP_targetsOfAll (name : String) : ∀ gs : List (List Element),
    (Group.slotsOfAll gs).countP (Slot.isTargetOf name) =
      (Group.scopesOfAll gs).flatten.countP (Element.isBindOf name)
  | [] => rfl
  | g :: gs => by
    rw [Group.slotsOfAll, List.countP_append, Group.countP_targets name g,
      Group.countP_targetsOfAll name gs, Group.flatten_scopesOfAll_cons, List.countP_append]

end

namespace Group

variable {g : Group}

theorem length_mapSlots (m : SlotMap) (g : Group) : (mapSlots m g).length = g.length := by
  induction g with
  | nil => rfl
  | cons e g ih => exact congrArg (· + 1) ih

theorem length_allElements_mapSlots (m : SlotMap) (g : Group) :
    (allElements (mapSlots m g)).length = g.allElements.length := by
  have hscopes : scopes (mapSlots m g) = g.scopes.map (mapSlots m) :=
    congrArg (mapSlots m g :: ·) (innerScopes_mapSlots m g)
  rw [allElements, hscopes, List.length_flatten, List.map_map, allElements, List.length_flatten]
  exact congrArg List.sum (List.map_congr_left fun h _ => length_mapSlots m h)

/-- What is removed is missing afterwards, apart from the empty blocks that come in. -/
theorem length_allElements_withoutBinds (name : String) (g : Group) :
    (withoutBinds name g).allElements.length + g.allElements.countP (Element.isBindOf name) =
      g.allElements.length + g.scopes.countP (losesAll name) := by
  have hscopes : (withoutBinds name g).scopes = g.scopes.map (withoutBinds name) := by
    rw [withoutBinds, scopes, innerScopes_refill, innerScopes_otherElements]
    rfl
  rw [allElements, hscopes, allElements]
  induction g.scopes with
  | nil => rfl
  | cons h hs ih =>
    have hlength := length_withoutBinds name h
    simp only [List.map_cons, List.flatten_cons, List.length_append, List.countP_append,
      List.countP_cons]
    omega

/-- Where there is nothing to count there is nothing to do. -/
theorem substitute_eq_self (hwritten : (slots (g.substitute name value)).countP (Slot.isOf name) = 0)
    (hcollapsed : value.isSome = true → g.allElements.countP (Element.isBindOf name) = 0) :
    g.substitute name value = g := by
  have hcollapse : g.collapse name value = g := by
    cases value with
    | none => rfl
    | some t =>
      refine withoutBinds_eq_self fun s hs => Bool.eq_false_iff.mpr ?_
      have hnone := hcollapsed rfl
      rw [← countP_targets, List.countP_eq_zero] at hnone
      exact hnone s hs
  rw [substitute, hcollapse] at hwritten ⊢
  refine mapSlots_eq_self fun s hs => Slot.map_resolve_of_not_isOf ?_
  rw [slots_mapSlots, List.countP_eq_zero] at hwritten
  have hs' := hwritten _ (List.mem_map_of_mem hs)
  rw [Slot.isOf_map_resolve] at hs'
  exact Bool.eq_false_iff.mpr hs'

/-- The pass gives the group of the substitution, and its counts are exact. The `BIND`s counted are
those of the name in all scopes if a value is set, and none if the variable is freed; so many elements
are missing from the scopes afterwards, apart from one empty block in each scope that had nothing but
them. The slots counted are those of the name in the new group. Where nothing is counted, the group
stays as it was. -/
theorem substitutionPass_counts (name : String) (value : Option Term) (g : Group) :
    (g.substitutionPass name value).value = g.substitute name value ∧
      (g.substitutionPass name value).count.collapsed =
        (if value.isSome then g.allElements.countP (Element.isBindOf name) else 0) ∧
      (g.substitute name value).allElements.length +
          (g.substitutionPass name value).count.collapsed =
        g.allElements.length + (if value.isSome then g.scopes.countP (losesAll name) else 0) ∧
      (g.substitutionPass name value).count.written =
        (slots (g.substitute name value)).countP (Slot.isOf name) ∧
      ((g.substitutionPass name value).count = ⟨0, 0⟩ → g.substitute name value = g) := by
  have hwritten := written_substitutionPass name value g
  have hcollapsed := collapsed_substitutionPass name value g
  refine ⟨value_substitutionPass name value g, hcollapsed, ?_, hwritten, fun hcount => ?_⟩
  · rw [hcollapsed, substitute, length_allElements_mapSlots]
    cases value with
    | none => rfl
    | some t => exact length_allElements_withoutBinds name g
  · rw [hcount] at hwritten hcollapsed
    refine substitute_eq_self hwritten.symm fun hsome => ?_
    rw [if_pos hsome] at hcollapsed
    exact hcollapsed.symm

/-- The `OPTIONAL` loses its only element, and of `?v` the slot that stays is written. A name without
slots and `BIND`s counts nothing. -/
theorem substitutionPass_counts_optional :
    let g : Group := [.optional [.bind (.term (.free "v")) ⟨"v", none⟩], .filter (.term (.free "v"))]
    (g.substitutionPass "v" (some (.iri ⟨"a"⟩))).count = ⟨1, 1⟩ ∧
      (g.substitute "v" (some (.iri ⟨"a"⟩))).allElements.length + 1 = g.allElements.length + 1 ∧
      (g.substitutionPass "w" (some (.iri ⟨"a"⟩))).count = ⟨0, 0⟩ ∧
      g.substitute "w" (some (.iri ⟨"a"⟩)) = g := by
  intro g
  obtain ⟨-, -, hlength, -⟩ := substitutionPass_counts "v" (some (.iri ⟨"a"⟩)) g
  have hcount : (g.substitutionPass "w" (some (.iri ⟨"a"⟩))).count = ⟨0, 0⟩ := by rfl
  exact ⟨rfl, hlength, hcount,
    (substitutionPass_counts "w" (some (.iri ⟨"a"⟩)) g).2.2.2.2 hcount⟩

end Group

end GraphPattern
