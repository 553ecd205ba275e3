import GraphPattern.Proofs.Builder.Emission
import GraphPattern.Proofs.Builder.Freshness

/-!
# Computed variables

A variable that a `BIND` computes should carry no value anywhere in the group. What is added to a
builder term by term keeps to that: a `BIND` is refused if a slot carries a value for its target,
and a variable that is resolved is no longer computed. A copy that is attached is brought in line
with the resolutions, and otherwise it is not compared with the group. So along a run all groups
leave their computed variables free exactly if each pattern would do so side by side with the group
that it is attached to, once the `BIND`s of resolved variables are removed
(`PatternBuilder.run_leavesFree_iff`).
-/

namespace GraphPattern

/-- Whether a variable of this name stands in the slot and carries a value. -/
def Slot.Carries (name : String) (s : Slot) : Prop := ∃ value, s.var? = some ⟨name, some value⟩

namespace Group

/-- Whether a slot carries a value for the variable of this name. -/
def Carries (name : String) (g : Group) : Prop := ∃ s ∈ slots g, s.Carries name

/-- Whether a `BIND` computes the variable of this name. -/
def Computes (name : String) (g : Group) : Prop := ∃ s ∈ slots g, s.isTargetOf name = true

/-- Whether no variable that is computed carries a value. -/
def LeavesFree (g : Group) : Prop := ∀ name, g.Computes name → ¬g.Carries name

/-- The group without the `BIND`s of resolved variables. -/
def withoutComputed (values : Resolutions) (g : Group) : Group :=
  values.replay (fun name _ => withoutBinds name) g

end Group

variable {name other : String} {values : Resolutions}

/-! ## Slots -/

namespace Slot

/-- What is done to another variable does not matter. -/
theorem carries_map_resolve (hne : other ≠ name) (u : Option Term) (s : Slot) :
    (s.map (.resolve other u)).Carries name ↔ s.Carries name := by
  unfold Carries
  rw [var?_map_resolve]
  constructor
  · intro h
    obtain ⟨value, h⟩ := h
    obtain ⟨w, hw, heq⟩ := Option.map_eq_some_iff.mp h
    by_cases hother : w.name = other
    · rw [Variable.resolve, if_pos hother] at heq
      cases heq
      exact absurd hother.symm hne
    · rw [Variable.resolve, if_neg hother] at heq
      exact ⟨value, heq ▸ hw⟩
  · intro h
    obtain ⟨value, h⟩ := h
    refine ⟨value, ?_⟩
    rw [h, Option.map_some, Variable.resolve, if_neg (Ne.symm hne)]

theorem carries_map_relabel (r : Renaming) (s : Slot) :
    (s.map (.relabel r)).Carries name ↔ s.Carries name := by
  unfold Carries
  cases s with
  | term t => cases t <;> simp [map, SlotMap.relabel, Term.relabel, var?, Term.asVariable]
  | projected v =>
    obtain ⟨n, binding⟩ := v
    cases binding <;> simp [map, SlotMap.relabel, var?]
  | target v => simp [map, var?]

theorem Sourced.mem_of_carries {t : Term} (h : (Slot.term t).Sourced values)
    (hcarries : (Slot.term t).Carries name) : ∃ value, (name, value) ∈ values.entries := by
  obtain ⟨value, hvar⟩ := hcarries
  refine ⟨value, h name value ?_⟩
  rw [Term.eq_ofVariable_of_asVariable hvar]
  rfl

end Slot

/-! ## Groups -/

namespace Group

variable {g h : Group} {added : List Slot}

/-- Whether a computed variable carries a value is read off the slots. -/
theorem leavesFree_congr (hslots : slots g = slots h) : g.LeavesFree ↔ h.LeavesFree := by
  unfold LeavesFree Computes Carries
  rw [hslots]

theorem carries_append (hslots : slots h = slots g ++ added) :
    h.Carries name ↔ g.Carries name ∨ ∃ s ∈ added, s.Carries name := by
  unfold Carries
  rw [hslots]
  simp only [List.mem_append, or_and_right, exists_or]

theorem computes_append (hslots : slots h = slots g ++ added) :
    h.Computes name ↔ g.Computes name ∨ ∃ s ∈ added, s.isTargetOf name = true := by
  unfold Computes
  rw [hslots]
  simp only [List.mem_append, or_and_right, exists_or]

theorem not_carries_of_findBinding (h : g.findBinding name = none) : ¬g.Carries name := by
  intro hcarries
  obtain ⟨s, hs, value, hvar⟩ := hcarries
  have hmem : (⟨name, some value⟩ : Variable) ∈ s.variables := by
    cases s with
    | term t =>
      rw [Term.eq_ofVariable_of_asVariable hvar]
      exact List.mem_cons_self
    | projected v =>
      cases hvar
      exact List.mem_cons_self
    | target v => cases hvar
  have hnone := List.findSome?_eq_none_iff.mp h _ (List.mem_flatMap.mpr ⟨s, hs, hmem⟩)
  rw [if_pos rfl] at hnone
  cases hnone

/-! ## Substitution -/

theorem computes_of_substitute {u : Option Term} (h : (substitute other u g).Computes name) :
    g.Computes name := by
  obtain ⟨s, hs, htarget⟩ := h
  obtain ⟨r, hr, rfl, _⟩ := mem_slots_substitute hs
  rw [Slot.isTargetOf_map] at htarget
  exact ⟨r, hr, htarget⟩

/-- A value that a slot carries was set just now, or the slot carried it before. -/
theorem carries_of_substitute {u : Option Term} (h : (substitute other u g).Carries name) :
    (name = other ∧ u.isSome = true) ∨ g.Carries name := by
  obtain ⟨s, hs, value, hvar⟩ := h
  obtain ⟨r, hr, rfl, _⟩ := mem_slots_substitute hs
  rw [Slot.var?_map_resolve] at hvar
  obtain ⟨w, hw, heq⟩ := Option.map_eq_some_iff.mp hvar
  by_cases hother : w.name = other
  · rw [Variable.resolve, if_pos hother] at heq
    cases heq
    exact .inl ⟨hother, rfl⟩
  · rw [Variable.resolve, if_neg hother] at heq
    exact .inr ⟨r, hr, value, heq ▸ hw⟩

theorem exists_slot_mapSlots {P : Slot → Prop} {m : SlotMap} (hm : ∀ s : Slot, P (s.map m) ↔ P s)
    (g : Group) : (∃ s ∈ slots (mapSlots m g), P s) ↔ ∃ s ∈ slots g, P s := by
  rw [slots_mapSlots]
  simp only [List.mem_map, exists_exists_and_eq_and, hm]

theorem withoutComputed_mapSlots (m : SlotMap) (g : Group) :
    withoutComputed values (mapSlots m g) = mapSlots m (withoutComputed values g) :=
  List.foldl_hom (mapSlots m) fun g _ => withoutBinds_mapSlots _ _ g

/-- What the resolutions do to the slots does not matter for a property that they do not touch, so
only the `BIND`s that they remove show. -/
theorem exists_slot_applyToGroup {P : Slot → Prop}
    (hP : ∀ e ∈ values.entries, ∀ s : Slot, P (s.map (.resolve e.1 (some e.2))) ↔ P s) (g : Group) :
    (∃ s ∈ slots (values.applyToGroup g), P s) ↔ ∃ s ∈ slots (withoutComputed values g), P s := by
  unfold Resolutions.applyToGroup withoutComputed Resolutions.replay
  generalize values.entries = es at hP
  induction es generalizing g with
  | nil => rfl
  | cons e es ih =>
    obtain ⟨he, hes⟩ := List.forall_mem_cons.mp hP
    have hmap : es.foldl (fun g e => withoutBinds e.1 g) (substitute e.1 (some e.2) g) =
        mapSlots (.resolve e.1 (some e.2))
          (es.foldl (fun g e => withoutBinds e.1 g) (withoutBinds e.1 g)) :=
      List.foldl_hom (mapSlots (.resolve e.1 (some e.2))) fun g _ => withoutBinds_mapSlots _ _ g
    rw [List.foldl_cons, List.foldl_cons, ih _ hes, hmap, exists_slot_mapSlots he]

theorem not_computes_withoutComputed {value : Term} (h : (name, value) ∈ values.entries)
    (g : Group) : ¬(withoutComputed values g).Computes name := by
  refine Resolutions.replay_establishes (P := fun name _ g => ¬Computes name g) ?_ ?_ h g
  · intro name _ g hcomputes
    obtain ⟨s, hs, htarget⟩ := hcomputes
    rw [(mem_slots_withoutBinds hs).2] at htarget
    cases htarget
  · intro name _ other _ g hg _ hcomputes
    obtain ⟨s, hs, htarget⟩ := hcomputes
    exact hg ⟨s, (mem_slots_withoutBinds hs).1, htarget⟩

theorem Agrees.not_computes {value : Term} (h : g.Agrees name value) : ¬g.Computes name := by
  intro hcomputes
  obtain ⟨s, hs, htarget⟩ := hcomputes
  rw [(h s hs).not_target] at htarget
  cases htarget

end Group

/-! ## Calls -/

namespace PatternCall

/-- Whether no variable in the terms, paths and expressions of a call carries a value. What is in a
pattern does not matter. -/
def HasOpenTerms : PatternCall → Prop
  | .addOptional _ _ => True
  | .addUnion _ _ => True
  | .addMinus _ _ => True
  | .addSubQuery _ _ => True
  | call => call.IsOpen

theorem slots_place {prefixes : Prefixes} {call : PatternCall} {given : Group}
    (h : call.attached? prefixes = some given) (copy g : Group) :
    Group.slots (call.place copy g) = Group.slots g ++ Group.slots copy := by
  cases call with
  | addOptional pattern order => exact Group.slots_concat g (.optional copy)
  | addUnion pattern order => exact Group.slots_pushAlternative g copy
  | addMinus pattern order => exact Group.slots_concat g (.minus copy)
  | addSubQuery query order => exact Group.slots_append g copy
  | _ => cases h

end PatternCall

namespace PatternBuilder

open GraphPattern.Group

variable {b b' : PatternBuilder} {call : PatternCall}

/-- Whether what a call attaches, if it attaches a pattern, leaves computed variables free side by
side with the group, once the `BIND`s of resolved variables are removed from it. -/
def Accepts (b : PatternBuilder) (call : PatternCall) : Prop :=
  ∀ g, call.attached? b.prefixes = some g → LeavesFree (b.group ++ withoutComputed b.values g)

/-- A copy counts as the pattern it was made of: a variable that is not resolved is computed, and
carries a value, in both or in none, and one that is resolved is computed in neither. -/
theorem Consistent.leavesFree_attached (hb : b.Consistent) (r : Renaming) (g : Group) :
    LeavesFree (b.group ++ b.values.applyToGroup (g.relabel r)) ↔
      LeavesFree (b.group ++ withoutComputed b.values g) := by
  refine forall_congr' fun name => ?_
  rw [computes_append (slots_append _ _), computes_append (slots_append _ _),
    carries_append (slots_append _ _), carries_append (slots_append _ _)]
  by_cases hresolved : ∃ value, (name, value) ∈ b.values.entries
  · obtain ⟨value, hmem⟩ := hresolved
    have hgroup := (hb name value hmem).not_computes
    have hcopy := (Resolutions.agrees_applyToGroup hmem (g.relabel r)).not_computes
    have hgiven := not_computes_withoutComputed hmem g
    refine iff_of_true (fun hcomputes => ?_) (fun hcomputes => ?_)
    · exact absurd hcomputes (not_or.mpr ⟨hgroup, hcopy⟩)
    · exact absurd hcomputes (not_or.mpr ⟨hgroup, hgiven⟩)
  · have hcopy : ∀ {P : Slot → Prop},
        (∀ e ∈ b.values.entries, ∀ s : Slot, P (s.map (.resolve e.1 (some e.2))) ↔ P s) →
        (∀ s : Slot, P (s.map (.relabel r)) ↔ P s) →
        ((∃ s ∈ slots (b.values.applyToGroup (g.relabel r)), P s) ↔
          ∃ s ∈ slots (withoutComputed b.values g), P s) := by
      intro P hresolve hrelabel
      rw [exists_slot_applyToGroup hresolve, relabel, withoutComputed_mapSlots,
        exists_slot_mapSlots hrelabel]
    have hne : ∀ e ∈ b.values.entries, e.1 ≠ name := fun e he heq =>
      hresolved ⟨e.2, heq ▸ he⟩
    rw [hcopy (fun e he s => by rw [Slot.isTargetOf_map]) fun s => by rw [Slot.isTargetOf_map],
      hcopy (fun e he s => Slot.carries_map_resolve (hne e he) _ s) (Slot.carries_map_relabel r)]

/-- A computed variable is not resolved, so a value for it comes with no term that carries only what
its variables are resolved to. -/
theorem Consistent.carries_before {added : List Slot} (hb : b'.Consistent)
    (hslots : slots b'.group = slots b.group ++ added)
    (hadded : ∀ t, Slot.term t ∈ added → (Slot.term t).Sourced b'.values)
    (hvars : ∀ v, Slot.projected v ∉ added) (hcomputes : b'.group.Computes name)
    (hcarries : b'.group.Carries name) : b.group.Carries name := by
  rcases (carries_append hslots).mp hcarries with hcarries | hcarries
  · exact hcarries
  · obtain ⟨s, hs, hcarries⟩ := hcarries
    cases s with
    | term t =>
      obtain ⟨value, hmem⟩ := (hadded t hs).mem_of_carries hcarries
      exact absurd hcomputes (hb name value hmem).not_computes
    | projected v => exact absurd hs (hvars v)
    | target v =>
      obtain ⟨_, hvar⟩ := hcarries
      cases hvar

theorem Consistent.leavesFree_append {ts : List Term} (hb : b'.Consistent)
    (hfree : b.group.LeavesFree) (hslots : slots b'.group = slots b.group ++ ts.map Slot.term)
    (hsourced : ∀ s ∈ ts.map Slot.term, s.Sourced b'.values) : b'.group.LeavesFree := by
  intro name hcomputes hcarries
  have hbefore := hb.carries_before hslots (fun t ht => hsourced _ ht) (by simp) hcomputes hcarries
  rcases (computes_append hslots).mp hcomputes with hcomputes | hcomputes
  · exact hfree name hcomputes hbefore
  · obtain ⟨s, hs, htarget⟩ := hcomputes
    obtain ⟨t, _, rfl⟩ := List.mem_map.mp hs
    cases htarget

/-- Calls that attach nothing keep computed variables free. -/
theorem Consistent.leavesFree_outcome (hb : b.Consistent) (hfree : b.group.LeavesFree)
    (hopen : call.HasOpenTerms) (hnone : call.attached? b.prefixes = none)
    (h : Outcome b call b') : b'.group.LeavesFree := by
  have hb' := hb.outcome h
  cases h with
  | addPrefix label ns => exact hfree
  | @addWhere _ _ _ t ht =>
    obtain ⟨hs, hp, ho⟩ := hopen
    refine hb'.leavesFree_append hfree (slots_pushTriple _ _) ?_
    rw [Resolutions.applyToTriple, Triple.terms_map]
    exact Resolutions.sourced_terms (Triple.isOpen_of_ofArgs hs hp ho ht)
  | addOptional hp hg => simp [PatternCall.attached?, hp, Except.toOption] at hnone
  | addUnion hp hg => simp [PatternCall.attached?, hp, Except.toOption] at hnone
  | addMinus hp hg => simp [PatternCall.attached?, hp, Except.toOption] at hnone
  | addSubQuery hg => cases hnone
  | @addBind _ _ v e hv hvalue he =>
    have hbinding : b.group.findBinding v.name = none :=
      (Option.or_eq_none_iff.mp hvalue).2
    have hslots := slots_concat b.group (.bind (b.values.applyToExpression e) v)
    intro name hcomputes hcarries
    have hbefore : b.group.Carries name := by
      refine hb'.carries_before hslots (fun t ht => ?_) (by simp [Element.slots]) hcomputes hcarries
      refine Resolutions.sourced_terms (Arg.expression_open hopen he) _ ?_
      rw [← Expression.terms_map]
      rw [Element.slots, List.mem_append, List.mem_singleton] at ht
      exact ht.resolve_right (by simp)
    rcases (computes_append hslots).mp hcomputes with hcomputes | hcomputes
    · exact hfree name hcomputes hbefore
    · -- the guard: no slot carries a value for the target
      obtain ⟨s, hs, htarget⟩ := hcomputes
      rw [Element.slots, List.mem_append, List.mem_singleton] at hs
      rcases hs with hs | rfl
      · obtain ⟨t, _, rfl⟩ := List.mem_map.mp hs
        cases htarget
      · obtain rfl : v.name = name := of_decide_eq_true htarget
        exact not_carries_of_findBinding hbinding hbefore
  | @addFilter _ e he =>
    refine hb'.leavesFree_append hfree (slots_concat _ _) ?_
    rw [Resolutions.applyToExpression, Expression.terms_map]
    exact Resolutions.sourced_terms (Arg.expression_open hopen he)
  | list hm hc =>
    refine hb'.leavesFree_append hfree (slots_pushTriples _ _) fun s hs => ?_
    obtain ⟨t, ht, rfl⟩ := List.mem_map.mp hs
    rcases Collection.mem_terms_triples hc ht with hmember | hvar
    · exact Resolutions.sourced_terms (Arg.terms_open hopen hm) _ (List.mem_map_of_mem hmember)
    · exact Slot.sourced_term (Term.isOpen_of_asVariable_eq_none hvar)
  | @setVar _ _ v t hv ht =>
    intro name hcomputes hcarries
    rcases carries_of_substitute hcarries with ⟨rfl, _⟩ | hcarries
    · have hagrees := hb' v.name t (OrderedMap.mem_entries_insert.mpr (.inl ⟨rfl, rfl⟩))
      exact hagrees.not_computes hcomputes
    · exact hfree name (computes_of_substitute hcomputes) hcarries
  | @unsetVar _ v hv =>
    intro name hcomputes hcarries
    rcases carries_of_substitute hcarries with ⟨_, hsome⟩ | hcarries
    · cases hsome
    · exact hfree name (computes_of_substitute hcomputes) hcarries

/-- After a call, computed variables are free exactly if what the call attaches is accepted. -/
theorem perform_leavesFree {s t : Session PatternBuilder} {r : Option Term}
    (hs : s.builder.Consistent) (hfree : s.builder.group.LeavesFree) (hopen : call.HasOpenTerms)
    (h : perform call s = .ok r t) :
    t.builder.group.LeavesFree ↔ s.builder.Accepts call := by
  cases hg : call.attached? s.builder.prefixes with
  | none =>
    refine iff_of_true (hs.leavesFree_outcome hfree hopen hg (outcome_of_perform h)) ?_
    intro g hsome
    rw [hg] at hsome
    cases hsome
  | some g =>
    obtain ⟨_, count, copy, l, hcopy, hgroup, _⟩ := place_of_perform hg h
    obtain ⟨ρ, rfl⟩ := Allocator.makeDisjoint_eq_ok hcopy
    have hslots := PatternCall.slots_place hg (s.builder.values.applyToGroup (g.relabel ρ))
      s.builder.group
    rw [← slots_append] at hslots
    rw [hgroup, leavesFree_congr hslots, hs.leavesFree_attached]
    constructor
    · intro hfree g' hg'
      rw [hg] at hg'
      cases hg'
      exact hfree
    · intro haccepts
      exact haccepts g hg

/-! ## Runs -/

theorem run_concat (b : PatternBuilder) (calls : List (PatternCall × Nat)) (call : PatternCall)
    (next : Nat) : b.run (calls ++ [(call, next)]) = (b.run calls).after call next := by
  rw [run, List.foldl_concat]
  rfl

/-- Whatever is called, in whatever order, failing calls included: computed variables are free at
all times exactly if, whenever a pattern is attached, they would be free in the group with the
pattern beside it, without the `BIND`s of variables that are resolved there. -/
theorem run_leavesFree_iff (config : Config) (calls : List (PatternCall × Nat))
    (hopen : ∀ c ∈ calls, c.1.HasOpenTerms) :
    (∀ front, front <+: calls → ((new config).run front).group.LeavesFree) ↔
      ∀ front call next r t, front ++ [(call, next)] <+: calls →
        perform call ⟨(new config).run front, next⟩ = .ok r t →
        ((new config).run front).Accepts call := by
  have hcall : ∀ {front call next}, front ++ [(call, next)] <+: calls → call.HasOpenTerms :=
    fun {_ call next} hpre => hopen (call, next) (hpre.subset (by simp))
  constructor
  · intro hfree front call next r t hpre h
    have hfront := hfree front ((List.prefix_append _ _).trans hpre)
    have hafter := hfree _ hpre
    rw [run_concat, after, h] at hafter
    exact (perform_leavesFree (consistent_run config front) hfront (hcall hpre) h).mp hafter
  · intro haccepts front hpre
    induction front using List.reverseRecOn with
    | nil =>
      intro name hcomputes
      obtain ⟨s, hs, _⟩ := hcomputes
      cases hs
    | append_singleton front c ih =>
      obtain ⟨call, next⟩ := c
      have hfront := ih ((List.prefix_append _ _).trans hpre)
      rw [run_concat, after]
      split
      · rename_i r t h
        exact (perform_leavesFree (consistent_run config front) hfront (hcall hpre) h).mpr
          (haccepts front call next r t hpre h)
      · rename_i h
        rw [builder_of_perform_error h]
        exact hfront

/-- A builder with the triple `?x <p> <o>`, in which `?x` is resolved to `<c>`. -/
def resolvedSource : PatternBuilder :=
  (new {}).run
    [(.addWhere (.value (.free "x")) (.value (.predicate (.iri ⟨"p"⟩))) (.value (.iri ⟨"o"⟩)), 0),
      (.setVar (.value (.free "x")) (.value (.iri ⟨"c"⟩)), 0)]

/-- Computes `?x`, and attaches a builder in which `?x` is resolved. -/
def computingCalls : List (PatternCall × Nat) :=
  [(.addBind (.value (.term (.literal (.integer 1)))) (.value (.free "x")), 0),
    (.addOptional resolvedSource.toArg, 0)]

/-- A variable that the group computes carries a value in a copy that is attached. -/
theorem run_leavesFree_resolved :
    (∀ c ∈ computingCalls, c.1.HasOpenTerms) ∧
      ¬∀ front, front <+: computingCalls → ((new {}).run front).group.LeavesFree := by
  have hopen : ∀ c ∈ computingCalls, c.1.HasOpenTerms := by
    simp only [computingCalls, List.forall_mem_cons, List.not_mem_nil, false_imp_iff,
      implies_true, and_true]
    exact ⟨Expression.isOpen_term.mpr nofun, trivial⟩
  refine ⟨hopen, fun hfree => ?_⟩
  have haccepts := (run_leavesFree_iff {} computingCalls hopen).mp hfree
    [(.addBind (.value (.term (.literal (.integer 1)))) (.value (.free "x")), 0)]
    (.addOptional resolvedSource.toArg) 0 none _ (List.prefix_refl _) rfl
  have hx := haccepts resolvedSource.group rfl "x"
  exact hx ⟨.target ⟨"x", none⟩, by decide, rfl⟩
    ⟨.term (.bound "x" (.iri ⟨"c"⟩)), by decide, .iri ⟨"c"⟩, rfl⟩

end PatternBuilder

end GraphPattern
