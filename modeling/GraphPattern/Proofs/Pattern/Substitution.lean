import GraphPattern.Proofs.Pattern.Collapse
import GraphPattern.Proofs.Pattern.SlotMap
import Mathlib.Data.List.Induction
import Mathlib.Data.List.Nodup

/-!
# Laws of substitution

Of several substitutions for one name only the last is seen in the slots, and whether one of them
set a value is seen in the `BIND`s (`Group.substitute_history`). Substitutions for two names can be
made in either order, so resolutions can be replayed in any order (`Group.substitution_order`).
-/

namespace GraphPattern

/-! ## One slot -/

/-- The variable in a slot that a substitution may write, if there is one. The target of a `BIND` is
not written. -/
def Slot.var? : Slot → Option Variable
  | .term t => t.asVariable
  | .projected v => some v
  | .target _ => none

namespace Variable

theorem resolve_resolve_same (name : String) (u w : Option Term) (v : Variable) :
    (v.resolve name w).resolve name u = v.resolve name u := by
  by_cases h : v.name = name <;> simp [resolve, h]

theorem resolve_comm {a b : String} (hab : a ≠ b) (u w : Option Term) (v : Variable) :
    (v.resolve b w).resolve a u = (v.resolve a u).resolve b w := by
  by_cases ha : v.name = a
  · have hb : v.name ≠ b := fun hb => hab (ha.symm.trans hb)
    simp [resolve, ha, hab]
  · by_cases hb : v.name = b <;> simp [resolve, ha, hb, Ne.symm hab]

end Variable

namespace Term

theorem eq_ofVariable_of_asVariable {t : Term} {v : Variable} (h : t.asVariable = some v) :
    t = ofVariable v := by
  cases t <;> cases h <;> rfl

theorem resolve_of_asVariable_eq_none {t : Term} (h : t.asVariable = none) (name : String)
    (value : Option Term) : t.resolve name value = t := by
  rw [resolve, h]

@[simp] theorem resolve_ofVariable (name : String) (value : Option Term) (v : Variable) :
    (ofVariable v).resolve name value = ofVariable (v.resolve name value) := by
  rw [resolve, asVariable_ofVariable]

theorem resolve_resolve_same (name : String) (u w : Option Term) (t : Term) :
    (t.resolve name w).resolve name u = t.resolve name u := by
  cases h : t.asVariable with
  | none => rw [resolve_of_asVariable_eq_none h]
  | some v =>
    rw [eq_ofVariable_of_asVariable h, resolve_ofVariable, resolve_ofVariable, resolve_ofVariable,
      Variable.resolve_resolve_same]

theorem resolve_comm {a b : String} (hab : a ≠ b) (u w : Option Term) (t : Term) :
    (t.resolve b w).resolve a u = (t.resolve a u).resolve b w := by
  cases h : t.asVariable with
  | none => simp only [resolve_of_asVariable_eq_none h]
  | some v =>
    simp only [eq_ofVariable_of_asVariable h, resolve_ofVariable, Variable.resolve_comm hab]

end Term

theorem SlotMap.resolve_comp_resolve (name : String) (u w : Option Term) :
    (SlotMap.resolve name u).comp (.resolve name w) = .resolve name u := by
  simp only [comp, resolve, Term.resolve_resolve_same, Variable.resolve_resolve_same]

theorem SlotMap.resolve_comp_comm {a b : String} (hab : a ≠ b) (u w : Option Term) :
    (SlotMap.resolve a u).comp (.resolve b w) = (SlotMap.resolve b w).comp (.resolve a u) := by
  simp only [comp, resolve, Term.resolve_comm hab, Variable.resolve_comm hab]

namespace Slot

theorem var?_map_resolve (name : String) (value : Option Term) (s : Slot) :
    (s.map (.resolve name value)).var? = s.var?.map (Variable.resolve name value) := by
  cases s with
  | term t =>
    show (t.resolve name value).asVariable = t.asVariable.map (Variable.resolve name value)
    cases h : t.asVariable with
    | none => rw [Term.resolve_of_asVariable_eq_none h, h, Option.map_none]
    | some v =>
      rw [Term.eq_ofVariable_of_asVariable h, Term.resolve_ofVariable, Term.asVariable_ofVariable,
        Option.map_some]
  | projected v => rfl
  | target v => rfl

@[simp] theorem isTargetOf_map (m : SlotMap) (name : String) (s : Slot) :
    (s.map m).isTargetOf name = s.isTargetOf name := by
  cases s <;> rfl

theorem map_resolve_eq_self {name : String} {value : Option Term} {s : Slot}
    (h : ∀ v, s.var? = some v → v.resolve name value = v) : s.map (.resolve name value) = s := by
  cases s with
  | term t =>
    refine congrArg Slot.term ?_
    show t.resolve name value = t
    cases ht : t.asVariable with
    | none => exact Term.resolve_of_asVariable_eq_none ht name value
    | some v => rw [Term.eq_ofVariable_of_asVariable ht, Term.resolve_ofVariable, h v ht]
  | projected v => exact congrArg Slot.projected (h v rfl)
  | target v => rfl

/-- Freeing a name leaves a slot as it is unless a variable of the name carries a value there. -/
theorem map_resolve_none {name : String} {s : Slot}
    (h : ∀ v, s.var? = some v → v.name = name → v.binding = none) :
    s.map (.resolve name none) = s := by
  refine map_resolve_eq_self fun v hs => ?_
  by_cases hn : v.name = name
  · rw [Variable.resolve, if_pos hn, ← h v hs hn]
  · rw [Variable.resolve, if_neg hn]

/-- A slot that a substitution does not leave as it is holds the variable with the new value. -/
theorem map_resolve_eq_or (name : String) (value : Option Term) (s : Slot) :
    s.map (.resolve name value) = s ∨ (s.map (.resolve name value)).var? = some ⟨name, value⟩ := by
  by_cases h : ∃ v, s.var? = some v ∧ v.name = name
  · obtain ⟨v, hv, rfl⟩ := h
    rw [var?_map_resolve, hv, Option.map_some, Variable.resolve, if_pos rfl]
    exact .inr rfl
  · refine .inl (map_resolve_eq_self fun v hv => ?_)
    rw [Variable.resolve, if_neg fun hn => h ⟨v, hv, hn⟩]

end Slot

namespace Group

/-! ## One name -/

theorem collapse_mapSlots (name : String) (value : Option Term) (m : SlotMap) (g : Group) :
    collapse name value (mapSlots m g) = mapSlots m (collapse name value g) := by
  cases value with
  | none => rfl
  | some t => exact withoutBinds_mapSlots name m g

/-- Each slot that is left comes from a slot of the group, and no target of the name is left where a
value is set. -/
theorem mem_slots_substitute {name : String} {value : Option Term} {g : Group} {s : Slot}
    (hs : s ∈ slots (substitute name value g)) :
    ∃ r ∈ slots g, r.map (.resolve name value) = s ∧
      (value.isSome = true → r.isTargetOf name = false) := by
  rw [substitute, slots_mapSlots] at hs
  obtain ⟨r, hr, rfl⟩ := List.mem_map.mp hs
  cases value with
  | none => exact ⟨r, hr, rfl, nofun⟩
  | some t =>
    obtain ⟨hmem, hname⟩ := mem_slots_withoutBinds hr
    exact ⟨r, hmem, rfl, fun _ => hname⟩

/-- A second substitution for a name overwrites the slots, but it does not bring back `BIND`s. -/
theorem substitute_substitute_same (name : String) (u w : Option Term) (g : Group) :
    substitute name u (substitute name w g) = substitute name u (collapse name w g) := by
  unfold substitute
  rw [collapse_mapSlots, mapSlots_mapSlots, SlotMap.resolve_comp_resolve]

theorem substitute_some_withoutBinds (name : String) (t : Term) (g : Group) :
    substitute name (some t) (withoutBinds name g) = substitute name (some t) g := by
  show mapSlots _ (withoutBinds name (withoutBinds name g)) = mapSlots _ (withoutBinds name g)
  rw [withoutBinds_idem]

/-- The group in which a sequence of substitutions for a name writes the slots: once a value was
set, the `BIND`s that computed one are gone. -/
def withoutReplaced (name : String) (values : List (Option Term)) (g : Group) : Group :=
  if values.all Option.isNone then g else withoutBinds name g

theorem foldl_collapse (name : String) (values : List (Option Term)) (g : Group) :
    values.foldl (fun h value => collapse name value h) g = withoutReplaced name values g := by
  induction values generalizing g with
  | nil => rfl
  | cons value values ih =>
    rw [List.foldl_cons, ih]
    cases value with
    | none => rfl
    | some t =>
      show (if values.all Option.isNone then withoutBinds name g
        else withoutBinds name (withoutBinds name g)) = withoutBinds name g
      rw [withoutBinds_idem, ite_self]

/-- Before the last substitution, the others show only in the `BIND`s. -/
theorem foldl_substitute_concat (name : String) (values : List (Option Term)) (last : Option Term)
    (g : Group) :
    (values ++ [last]).foldl (fun h value => substitute name value h) g =
      substitute name last (values.foldl (fun h value => collapse name value h) g) := by
  -- from the end: each substitution writes over the slots that the one before it wrote
  induction values using List.reverseRecOn generalizing last with
  | nil => rfl
  | append_singleton values value ih =>
    rw [List.foldl_concat, ih value, substitute_substitute_same, List.foldl_concat]

theorem substitute_withoutReplaced_concat (name : String) (values : List (Option Term))
    (last : Option Term) (g : Group) :
    substitute name last (withoutReplaced name (values ++ [last]) g) =
      substitute name last (withoutReplaced name values g) := by
  unfold withoutReplaced
  cases last with
  | none => simp
  | some t =>
    have hall : (values ++ [some t]).all Option.isNone = false := by simp
    rw [hall, if_neg Bool.false_ne_true, substitute_some_withoutBinds]
    split
    · rfl
    · rw [substitute_some_withoutBinds]

theorem mem_slots_withoutReplaced {name : String} {values : List (Option Term)} {g : Group}
    {s : Slot} (hs : s ∈ slots (withoutReplaced name values g)) : s ∈ slots g := by
  unfold withoutReplaced at hs
  split at hs
  · exact hs
  · exact (mem_slots_withoutBinds hs).1

/-- Of several substitutions for one name the last alone is seen in the slots, and of the `BIND`s of
the name none is left if one of them set a value. So setting a variable that carries no value and
freeing it again restores the group, its `BIND`s apart. -/
theorem substitute_history (name : String) (g : Group) (values : List (Option Term))
    (hne : values ≠ []) :
    values.foldl (fun h value => substitute name value h) g =
        substitute name (values.getLast hne) (withoutReplaced name values g) ∧
      (values.getLast hne = none →
        (∀ s ∈ slots g, ∀ v, s.var? = some v → v.name = name → v.binding = none) →
        values.foldl (fun h value => substitute name value h) g =
          withoutReplaced name values g) := by
  have hlast : values.foldl (fun h value => substitute name value h) g =
      substitute name (values.getLast hne) (withoutReplaced name values g) := by
    obtain ⟨front, last, rfl⟩ := (List.eq_nil_or_concat' values).resolve_left hne
    rw [List.getLast_append_singleton, foldl_substitute_concat, foldl_collapse,
      substitute_withoutReplaced_concat]
  refine ⟨hlast, fun hfree hslots => ?_⟩
  rw [hlast, hfree]
  exact mapSlots_eq_self fun s hs =>
    Slot.map_resolve_none (hslots s (mem_slots_withoutReplaced hs))

/-- Set to a variable and freed again: a `BIND` that fills its group leaves an empty block there, one
that does not leaves nothing. -/
theorem substitute_history_set_free :
    [some (.free "w"), none].foldl (fun h value => substitute "v" value h)
        [.optional [.bind (.term (.free "w")) ⟨"v", none⟩],
          .subQuery false [⟨"v", none⟩]
            [.bind (.term (.free "v")) ⟨"v", none⟩, .filter (.term (.free "v"))] .empty] =
      [.optional [.block []],
        .subQuery false [⟨"v", none⟩] [.filter (.term (.free "v"))] .empty] :=
  (substitute_history "v" _ _ (by simp)).2 rfl (by decide)

/-! ## Two names -/

theorem collapse_comm (a b : String) (u w : Option Term) (g : Group) :
    collapse a u (collapse b w g) = collapse b w (collapse a u g) := by
  cases u with
  | none => rfl
  | some s =>
    cases w with
    | none => rfl
    | some t => exact withoutBinds_comm a b g

theorem substitute_comm {a b : String} (hab : a ≠ b) (u w : Option Term) (g : Group) :
    substitute b w (substitute a u g) = substitute a u (substitute b w g) := by
  unfold substitute
  rw [collapse_mapSlots, mapSlots_mapSlots, collapse_mapSlots, mapSlots_mapSlots,
    collapse_comm a b, SlotMap.resolve_comp_comm hab]

end Group

/-- Where steps for different names commute, resolutions can be replayed in any order. -/
theorem Resolutions.replay_perm {α : Type} {step : String → Option Term → α → α}
    (hcomm : ∀ a b, a ≠ b → ∀ u w x, step b w (step a u x) = step a u (step b w x))
    {values values' : Resolutions} (h : values.entries.Perm values'.entries) (x : α) :
    values.replay step x = values'.replay step x := by
  refine h.foldl_eq' (fun e he f hf y => ?_) x
  by_cases hname : e.1 = f.1
  · rw [List.inj_on_of_nodup_map values.nodup_keys he hf hname]
  · exact hcomm e.1 f.1 hname (some e.2) (some f.2) y

/-- Substitutions for different names can be made in either order, whatever the values mention. So
the order in which resolutions are replayed on a group, a triple or an expression does not
matter. -/
theorem Group.substitution_order (g : Group) :
    (∀ a b, a ≠ b → ∀ u w, substitute b w (substitute a u g) = substitute a u (substitute b w g)) ∧
      ∀ values values' : Resolutions, values.entries.Perm values'.entries →
        values.applyToGroup g = values'.applyToGroup g ∧
          values.applyToTriple = values'.applyToTriple ∧
            values.applyToExpression = values'.applyToExpression := by
  refine ⟨fun a b hab u w => substitute_comm hab u w g, fun values values' h => ?_⟩
  have hterm : values.applyToTerm = values'.applyToTerm := by
    funext t
    exact Resolutions.replay_perm (fun a b hab u w t => (Term.resolve_comm hab u w t).symm) h t
  refine ⟨Resolutions.replay_perm (fun a b hab u w g => substitute_comm hab u w g) h g, ?_, ?_⟩
  · funext t
    rw [Resolutions.applyToTriple, Resolutions.applyToTriple, hterm]
  · funext e
    rw [Resolutions.applyToExpression, Resolutions.applyToExpression, hterm]

/-- Two variables that are resolved to one another and computed from one another, in a group that
holds nothing but what computes them. -/
theorem Group.substitution_order_crossed :
    substitute "y" (some (.free "x")) (substitute "x" (some (.free "y"))
        [.optional [.bind (.term (.free "y")) ⟨"x", none⟩, .bind (.term (.free "x")) ⟨"y", none⟩]]) =
      substitute "x" (some (.free "y")) (substitute "y" (some (.free "x"))
        [.optional [.bind (.term (.free "y")) ⟨"x", none⟩, .bind (.term (.free "x")) ⟨"y", none⟩]]) ∧
    Resolutions.applyToTriple ((OrderedMap.empty.insert "x" (.free "y")).insert "y" (.free "x")) =
      Resolutions.applyToTriple
        ((OrderedMap.empty.insert "y" (.free "x")).insert "x" (.free "y")) := by
  refine ⟨(substitution_order _).1 "x" "y" (by decide) _ _, ?_⟩
  exact ((substitution_order []).2 _ _ (.swap ("y", Term.free "x") ("x", Term.free "y") [])).2.1

end GraphPattern
