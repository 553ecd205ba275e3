import GraphPattern.Proofs.Builder.Outcome
import GraphPattern.Proofs.Collection
import GraphPattern.Proofs.OrderedMap
import GraphPattern.Proofs.Pattern.Growth
import GraphPattern.Proofs.Pattern.Substitution

/-!
# Resolutions reach the whole pattern

A builder keeps its group in line with its resolutions: every slot of a resolved variable, in
whatever scope, carries the value that the variable is resolved to, and nothing computes the
variable (`PatternBuilder.run_agrees`). A substitution brings the slots in line with one resolution
and does not disturb the others, so replaying all resolutions brings a copy in line with all.
-/

namespace GraphPattern

/-! ## Slots in line with a resolution -/

/-- A slot is in line with the resolution of a variable if it carries the value wherever the variable
stands in it, and if it is no target of a `BIND` that computes the variable. -/
structure Slot.Agrees (name : String) (value : Term) (s : Slot) : Prop where
  binding : ∀ v, s.var? = some v → v.name = name → v.binding = some value
  not_target : s.isTargetOf name = false

/-- A group is in line with the resolution of a variable if all its slots are. -/
def Group.Agrees (name : String) (value : Term) (g : Group) : Prop :=
  ∀ s ∈ slots g, s.Agrees name value

variable {name other : String} {value : Term}

namespace Slot

theorem agrees_of_var?_eq_none {s : Slot} (hv : s.var? = none)
    (ht : s.isTargetOf name = false) : s.Agrees name value where
  binding v h := by rw [hv] at h; cases h
  not_target := ht

/-- Setting the variable brings a slot in line. -/
theorem agrees_map_resolve {s : Slot} (h : s.isTargetOf name = false) :
    (s.map (.resolve name (some value))).Agrees name value where
  binding v hv hn := by
    rw [var?_map_resolve] at hv
    obtain ⟨w, _, rfl⟩ := Option.map_eq_some_iff.mp hv
    by_cases hw : w.name = name
    · rw [Variable.resolve, if_pos hw]
    · rw [Variable.resolve, if_neg hw] at hn
      exact absurd hn hw
  not_target := by rw [isTargetOf_map, h]

/-- What is done to another variable leaves a slot in line. -/
theorem Agrees.map_resolve {s : Slot} (h : s.Agrees name value) (hne : other ≠ name)
    (u : Option Term) : (s.map (.resolve other u)).Agrees name value where
  binding v hv hn := by
    rw [var?_map_resolve] at hv
    obtain ⟨w, hw, rfl⟩ := Option.map_eq_some_iff.mp hv
    by_cases ho : w.name = other
    · rw [Variable.resolve, if_pos ho] at hn
      exact absurd (ho.symm.trans hn) hne
    · rw [Variable.resolve, if_neg ho] at hn ⊢
      exact h.binding w hw hn
  not_target := by rw [isTargetOf_map, h.not_target]

end Slot

/-! ## Substitution and replay -/

theorem Group.agrees_substitute (g : Group) : (substitute name (some value) g).Agrees name value := by
  intro s hs
  obtain ⟨r, _, rfl, hr⟩ := mem_slots_substitute hs
  exact Slot.agrees_map_resolve (hr rfl)

theorem Group.Agrees.substitute {g : Group} (h : g.Agrees name value) (hne : other ≠ name)
    (u : Option Term) : (g.substitute other u).Agrees name value := by
  intro s hs
  obtain ⟨r, hr, rfl, _⟩ := mem_slots_substitute hs
  exact (h r hr).map_resolve hne u

namespace Resolutions

/-- A step sets up what holds of its own resolution, and steps for other variables do not disturb
it. Then a replay sets it up for all resolutions, as no variable has two. -/
theorem replay_establishes {α : Type} {step : String → Option Term → α → α}
    {P : String → Term → α → Prop} (own : ∀ name value a, P name value (step name (some value) a))
    (others : ∀ {name value other u a}, P name value a → other ≠ name →
      P name value (step other u a))
    {values : Resolutions} (h : (name, value) ∈ values.entries) (a : α) :
    P name value (values.replay step a) := by
  obtain ⟨front, back, hsplit⟩ := List.append_of_mem h
  have hnodup := values.nodup_keys
  rw [hsplit, List.map_append, List.map_cons, List.nodup_append] at hnodup
  have hfresh : name ∉ back.map Prod.fst := (List.nodup_cons.mp hnodup.2.1).1
  rw [replay, hsplit, List.foldl_append, List.foldl_cons]
  -- the step for the variable itself stands first, and all that follow are for other variables
  refine List.foldlRecOn back _ (own name value _) fun x hx e he => others hx ?_
  intro heq
  exact hfresh (heq ▸ List.mem_map_of_mem he)

variable {values : Resolutions}

/-- What every step preserves holds after a replay. -/
theorem replay_preserves {α : Type} {step : String → Option Term → α → α} {P : α → Prop} {a : α}
    (start : P a)
    (hstep : ∀ name value a, (name, value) ∈ values.entries → P a → P (step name (some value) a)) :
    P (values.replay step a) :=
  List.foldlRecOn values.entries _ start fun a ha e he => hstep e.1 e.2 a he ha

theorem agrees_applyToGroup (h : (name, value) ∈ values.entries) (g : Group) :
    (values.applyToGroup g).Agrees name value :=
  replay_establishes (fun _ _ g => Group.agrees_substitute g)
    (fun hg hne => hg.substitute hne _) h g

/-- A slot of a group to which the resolutions were applied carries the value of one of them, or it was
there before. -/
theorem mem_slots_applyToGroup {g : Group} {s : Slot}
    (hs : s ∈ Group.slots (values.applyToGroup g)) :
    (∃ e ∈ values.entries, s.var? = some ⟨e.1, some e.2⟩) ∨ s ∈ Group.slots g := by
  refine replay_preserves (P := fun h : Group => ∀ s ∈ Group.slots h,
    (∃ e ∈ values.entries, s.var? = some ⟨e.1, some e.2⟩) ∨ s ∈ Group.slots g)
    (fun s hs => .inr hs) (fun name value h hmem ih s hs => ?_) s hs
  obtain ⟨r, hr, rfl, _⟩ := Group.mem_slots_substitute hs
  rcases Slot.map_resolve_eq_or name (some value) r with heq | hvar
  · rw [heq]
    exact ih r hr
  · exact .inl ⟨_, hmem, hvar⟩

/-- A nested query stays one, whatever is resolved in it. -/
theorem applyToGroup_subQuery (values : Resolutions) (d : Bool) (vs : List Variable) (g : Group)
    (p : Prefixes) :
    ∃ d' vs' g' p', values.applyToGroup [.subQuery d vs g p] = [.subQuery d' vs' g' p'] := by
  refine replay_preserves (P := fun g : Group => ∃ d vs h p, g = [.subQuery d vs h p])
    ⟨d, vs, g, p, rfl⟩ fun name value g _ hg => ?_
  obtain ⟨_, _, _, _, rfl⟩ := hg
  exact ⟨_, _, _, _, rfl⟩

theorem agrees_applyToTerm (h : (name, value) ∈ values.entries) (t : Term) :
    (Slot.term (values.applyToTerm t)).Agrees name value :=
  replay_establishes (P := fun name value t => (Slot.term t).Agrees name value)
    (fun _ _ t => Slot.agrees_map_resolve (s := .term t) rfl)
    (fun ht hne => ht.map_resolve hne _) h t

theorem agrees_applyToTriple (h : (name, value) ∈ values.entries) (t : Triple) :
    ∀ s ∈ (values.applyToTriple t).terms.map Slot.term, s.Agrees name value := by
  intro s hs
  rw [applyToTriple, Triple.terms_map, List.map_map] at hs
  obtain ⟨x, _, rfl⟩ := List.mem_map.mp hs
  exact agrees_applyToTerm h x

theorem agrees_applyToExpression (h : (name, value) ∈ values.entries) (e : Expression) :
    ∀ s ∈ (values.applyToExpression e).terms.map Slot.term, s.Agrees name value := by
  intro s hs
  rw [applyToExpression, Expression.terms_map, List.map_map] at hs
  obtain ⟨x, _, rfl⟩ := List.mem_map.mp hs
  exact agrees_applyToTerm h x

/-- The nodes and properties of a list are no variables, and its members are in line. -/
theorem agrees_collection {a : Allocator} {members : List Term} {l m : Labelling} {c : Collection}
    (hc : Collection.ofTerms a (members.map values.applyToTerm) l = .ok c m)
    (h : (name, value) ∈ values.entries) :
    ∀ s ∈ (c.triples.flatMap Triple.terms).map Slot.term, s.Agrees name value := by
  intro s hs
  obtain ⟨t, ht, rfl⟩ := List.mem_map.mp hs
  rcases Collection.mem_terms_triples hc ht with hmem | hvar
  · obtain ⟨x, _, rfl⟩ := List.mem_map.mp hmem
    exact agrees_applyToTerm h x
  · exact Slot.agrees_of_var?_eq_none hvar rfl

end Resolutions

/-! ## Builders -/

namespace PatternBuilder

open GraphPattern.Group

/-- A builder whose group is in line with all its resolutions. -/
def Consistent (b : PatternBuilder) : Prop :=
  ∀ name value, (name, value) ∈ b.values.entries → b.group.Agrees name value

theorem consistent_new (config : Config) : (new config).Consistent := by
  intro name value h
  cases h

theorem Adopts.agrees {b : PatternBuilder} {g h : Group} (hg : b.Adopts g h)
    (hmem : (name, value) ∈ b.values.entries) : h.Agrees name value := by
  obtain ⟨_, _, _, copy, _, _, rfl⟩ := hg
  exact Resolutions.agrees_applyToGroup hmem copy

theorem Consistent.outcome {b b' : PatternBuilder} {call : PatternCall} (hb : b.Consistent)
    (h : Outcome b call b') : b'.Consistent := by
  cases h with
  | addPrefix label ns => exact hb
  | @addWhere _ _ _ t ht =>
    intro name value hmem
    exact forall_slots_of_append (slots_pushTriple _ _) (hb name value hmem)
      (Resolutions.agrees_applyToTriple hmem t)
  | @addOptional _ _ _ _ copy hp hg =>
    intro name value hmem
    exact forall_slots_of_append (slots_concat b.group (.optional copy)) (hb name value hmem)
      (hg.agrees hmem)
  | addUnion hp hg =>
    intro name value hmem
    exact forall_slots_of_append (slots_pushAlternative _ _) (hb name value hmem)
      (hg.agrees hmem)
  | @addMinus _ _ _ _ copy hp hg =>
    intro name value hmem
    exact forall_slots_of_append (slots_concat b.group (.minus copy)) (hb name value hmem)
      (hg.agrees hmem)
  | addSubQuery hg =>
    intro name value hmem
    exact forall_slots_of_append (slots_append _ _) (hb name value hmem) (hg.agrees hmem)
  | @addBind _ _ v e hv hfree he =>
    intro name value hmem
    refine forall_slots_of_append (slots_concat _ _) (hb name value hmem) fun s hs => ?_
    rw [Element.slots, List.mem_append, List.mem_singleton] at hs
    rcases hs with hs | rfl
    · exact Resolutions.agrees_applyToExpression hmem e s hs
    · -- the guard: a resolved variable is not computed
      refine Slot.agrees_of_var?_eq_none rfl (decide_eq_false ?_)
      rintro rfl
      have hlookup := OrderedMap.lookup_eq_some_iff.mpr hmem
      simp [valueOf?, hlookup] at hfree
  | @addFilter _ e he =>
    intro name value hmem
    exact forall_slots_of_append (slots_concat _ _) (hb name value hmem)
      (Resolutions.agrees_applyToExpression hmem e)
  | list hm hc =>
    intro name value hmem
    exact forall_slots_of_append (slots_pushTriples _ _) (hb name value hmem)
      (Resolutions.agrees_collection hc hmem)
  | setVar hv ht =>
    intro name value hmem
    rcases OrderedMap.mem_entries_insert.mp hmem with ⟨rfl, rfl⟩ | ⟨hne, hmem⟩
    · exact Group.agrees_substitute _
    · exact (hb name value hmem).substitute (Ne.symm hne) _
  | unsetVar hv =>
    intro name value hmem
    obtain ⟨hne, hmem⟩ := OrderedMap.mem_entries_erase.mp hmem
    exact (hb name value hmem).substitute (Ne.symm hne) _

theorem consistent_run (config : Config) (calls : List (PatternCall × Nat)) :
    ((new config).run calls).Consistent :=
  run_induction (consistent_new config) fun _ _ _ _ hb h => hb.outcome h

/-- After any calls, failing ones included, each slot of a resolved variable carries the value that
the variable is resolved to, at any depth of the group, and no `BIND` at any depth computes it. -/
theorem run_agrees (config : Config) (calls : List (PatternCall × Nat)) (name : String)
    (value : Term) (h : (name, value) ∈ ((new config).run calls).values.entries) :
    ∀ s ∈ Group.slots ((new config).run calls).group,
      (∀ v, s.var? = some v → v.name = name → v.binding = some value) ∧
        s.isTargetOf name = false := by
  intro s hs
  have hagrees := consistent_run config calls name value h s hs
  exact ⟨hagrees.binding, hagrees.not_target⟩

/-- A resolution and after it a copy that computes the variable and holds it with another value. -/
theorem run_agrees_copy :
    ("x", Term.iri ⟨"c"⟩) ∈ ((new {}).run
        [(.setVar (.value (.free "x")) (.value (.iri ⟨"c"⟩)), 0),
          (.addOptional (.group [.bind (.term (.free "y")) ⟨"x", none⟩,
            .filter (.term (.bound "x" (.iri ⟨"d"⟩)))] .empty), 0)]).values.entries ∧
      ∀ s ∈ Group.slots ((new {}).run
        [(.setVar (.value (.free "x")) (.value (.iri ⟨"c"⟩)), 0),
          (.addOptional (.group [.bind (.term (.free "y")) ⟨"x", none⟩,
            .filter (.term (.bound "x" (.iri ⟨"d"⟩)))] .empty), 0)]).group,
        (∀ v, s.var? = some v → v.name = "x" → v.binding = some (.iri ⟨"c"⟩)) ∧
          s.isTargetOf "x" = false :=
  ⟨by decide, run_agrees _ _ "x" _ (by decide)⟩

end PatternBuilder

end GraphPattern
