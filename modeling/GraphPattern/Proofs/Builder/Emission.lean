import GraphPattern.Proofs.Builder.Argument
import GraphPattern.Proofs.Builder.Resolution
import GraphPattern.Proofs.Labels

/-!
# What a builder emits

When no argument brings values of its own, a slot carries a value only where the variable in it is
resolved to that value (`PatternBuilder.sourced_run`). A value is emitted as it was given; it is not
resolved in its turn. So a variable is emitted although it is resolved if there is another variable
that is resolved to it and stands in the group, and in no other case
(`PatternBuilder.run_mentions_iff`).
-/

namespace GraphPattern

/-- Whether a variable of this name stands in a triple, a path or an expression, at any depth. -/
def Group.Mentions (name : String) (g : Group) : Prop :=
  ∃ t v, Slot.term t ∈ slots g ∧ t.asVariable = some v ∧ v.name = name

/-- Whether a value in the slot of a term is the one that its variable is resolved to. -/
def Slot.Sourced (values : Resolutions) (s : Slot) : Prop :=
  ∀ name value, s = .term (.bound name value) → (name, value) ∈ values.entries

/-! ## Terms that carry a value -/

namespace Term

theorem eq_bound_of_resolve {name other : String} {value : Option Term} {t u : Term}
    (h : t.resolve name value = .bound other u) :
    (other = name ∧ value = some u) ∨ (other ≠ name ∧ t = .bound other u) := by
  cases ht : t.asVariable with
  | none =>
    rw [resolve_of_asVariable_eq_none ht] at h
    subst h
    cases ht
  | some v =>
    rw [eq_ofVariable_of_asVariable ht, resolve_ofVariable] at h
    have hv : v.resolve name value = ⟨other, some u⟩ := by
      have hvar := congrArg asVariable h
      rw [asVariable_ofVariable] at hvar
      exact Option.some_inj.mp hvar
    by_cases hn : v.name = name
    · rw [Variable.resolve, if_pos hn] at hv
      cases hv
      exact .inl ⟨hn, rfl⟩
    · rw [Variable.resolve, if_neg hn] at hv
      subst hv
      exact .inr ⟨hn, eq_ofVariable_of_asVariable ht⟩

theorem IsOpen.relabel {t : Term} (h : t.IsOpen) (r : Renaming) : (t.relabel r).IsOpen := by
  cases t with
  | bound name value => exact absurd rfl (h name value)
  | _ => nofun

theorem IsOpen.effective_eq {t : Term} (h : t.IsOpen) : t.effective = t := by
  cases t with
  | bound name value => exact absurd rfl (h name value)
  | _ => rfl

theorem isOpen_of_asVariable_eq_none {t : Term} (h : t.asVariable = none) : t.IsOpen := by
  intro name value ht
  subst ht
  cases h

end Term

theorem Group.IsOpen.relabel {g : Group} (h : g.IsOpen) (r : Renaming) : (g.relabel r).IsOpen := by
  intro t ht
  rw [Group.relabel, slots_mapSlots] at ht
  obtain ⟨s, hs, hmap⟩ := List.mem_map.mp ht
  cases s with
  | term u =>
    cases hmap
    exact (h u hs).relabel r
  | projected v => cases hmap
  | target v => cases hmap

theorem Allocator.makeDisjoint_eq_ok {a : Allocator} {g copy : Group} {l m : Labelling}
    {order : LabelOrder} {count : Nat} (h : a.makeDisjoint g order l = .ok (count, copy) m) : ∃ r, copy = g.relabel r := by
  obtain ⟨r, _, _, rfl⟩ := renameApart_eq_ok h
  exact ⟨r, rfl⟩

/-! ## Substitution and replay -/

section

variable {values values' : Resolutions} {name : String}

theorem Slot.sourced_term {t : Term} (h : t.IsOpen) : (Slot.term t).Sourced values := by
  intro other value hs
  exact absurd (Slot.term.inj hs) (h other value)

/-- A slot that is written holds the new value or what it held before. -/
theorem Slot.Sourced.map_resolve {s : Slot} {value : Option Term} (h : s.Sourced values)
    (hown : ∀ u, value = some u → (name, u) ∈ values'.entries)
    (hothers : ∀ other u, other ≠ name → (other, u) ∈ values.entries →
      (other, u) ∈ values'.entries) :
    (s.map (.resolve name value)).Sourced values' := by
  intro other u hs
  cases s with
  | term t =>
    rcases Term.eq_bound_of_resolve (Slot.term.inj hs) with ⟨rfl, hu⟩ | ⟨hne, rfl⟩
    · exact hown u hu
    · exact hothers other u hne (h other u rfl)
  | projected v => cases hs
  | target v => cases hs

theorem Group.sourced_substitute {g : Group} {value : Option Term}
    (h : ∀ s ∈ slots g, s.Sourced values)
    (hown : ∀ u, value = some u → (name, u) ∈ values'.entries)
    (hothers : ∀ other u, other ≠ name → (other, u) ∈ values.entries →
      (other, u) ∈ values'.entries) :
    ∀ s ∈ slots (substitute name value g), s.Sourced values' := by
  intro s hs
  obtain ⟨r, hr, rfl, _⟩ := mem_slots_substitute hs
  exact (h r hr).map_resolve hown hothers

namespace Resolutions

theorem sourced_applyToTerm {t : Term} (h : t.IsOpen) :
    (Slot.term (values.applyToTerm t)).Sourced values := by
  refine replay_preserves (P := fun t => (Slot.term t).Sourced values) (Slot.sourced_term h) ?_
  intro name value t hmem ht
  refine ht.map_resolve (fun u hu => ?_) fun _ _ _ hother => hother
  cases hu
  exact hmem

theorem sourced_applyToGroup {g : Group} (h : g.IsOpen) :
    ∀ s ∈ Group.slots (values.applyToGroup g), s.Sourced values := by
  refine replay_preserves (P := fun g => ∀ s ∈ Group.slots g, s.Sourced values) ?_ ?_
  · intro s hs name value heq
    subst heq
    exact absurd rfl (h _ hs name value)
  · intro name value g hmem hg
    refine Group.sourced_substitute hg (fun u hu => ?_) fun _ _ _ hother => hother
    cases hu
    exact hmem

theorem sourced_terms {ts : List Term} (h : ∀ t ∈ ts, t.IsOpen) :
    ∀ s ∈ (ts.map values.applyToTerm).map Slot.term, s.Sourced values := by
  intro s hs
  obtain ⟨_, ht, rfl⟩ := List.mem_map.mp hs
  obtain ⟨t, hmem, rfl⟩ := List.mem_map.mp ht
  exact sourced_applyToTerm (h t hmem)

end Resolutions

end

/-! ## Builders -/

namespace PatternBuilder

open GraphPattern.Group

/-- A builder whose group carries no values but those of its resolutions, which carry none. -/
structure Sourced (b : PatternBuilder) : Prop where
  slots : ∀ s ∈ slots b.group, s.Sourced b.values
  values_open : ∀ name value, (name, value) ∈ b.values.entries → value.IsOpen

theorem sourced_new (config : Config) : (new config).Sourced where
  slots := nofun
  values_open := nofun

theorem Adopts.sourced {b : PatternBuilder} {g h : Group} (hg : b.Adopts g h) (hopen : g.IsOpen) :
    ∀ s ∈ Group.slots h, s.Sourced b.values := by
  obtain ⟨_, _, _, copy, _, hcopy, rfl⟩ := hg
  obtain ⟨r, rfl⟩ := Allocator.makeDisjoint_eq_ok hcopy
  exact Resolutions.sourced_applyToGroup (hopen.relabel r)

theorem Sourced.outcome {b b' : PatternBuilder} {call : PatternCall} (hb : b.Sourced)
    (hcall : call.IsOpen) (h : Outcome b call b') : b'.Sourced := by
  cases h with
  | addPrefix label ns => exact ⟨hb.slots, hb.values_open⟩
  | @addWhere _ _ _ t ht =>
    obtain ⟨hs, hp, ho⟩ := hcall
    refine ⟨forall_slots_of_append (slots_pushTriple _ _) hb.slots ?_, hb.values_open⟩
    rw [Resolutions.applyToTriple, Triple.terms_map]
    exact Resolutions.sourced_terms (Triple.isOpen_of_ofArgs hs hp ho ht)
  | @addOptional _ _ _ _ copy hp hg =>
    refine ⟨forall_slots_of_append (slots_concat b.group (.optional copy)) hb.slots ?_,
      hb.values_open⟩
    exact hg.sourced (PatternArg.isOpen_body hcall hp)
  | addUnion hp hg =>
    refine ⟨forall_slots_of_append (slots_pushAlternative _ _) hb.slots ?_, hb.values_open⟩
    exact hg.sourced (PatternArg.isOpen_alternative hcall hp)
  | @addMinus _ _ _ _ copy hp hg =>
    refine ⟨forall_slots_of_append (slots_concat b.group (.minus copy)) hb.slots ?_,
      hb.values_open⟩
    exact hg.sourced (PatternArg.isOpen_body hcall hp)
  | addSubQuery hg =>
    refine ⟨forall_slots_of_append (slots_append _ _) hb.slots ?_, hb.values_open⟩
    exact hg.sourced (Group.isOpen_subQuery hcall)
  | @addBind _ _ v e hv hfree he =>
    refine ⟨forall_slots_of_append (slots_concat _ _) hb.slots fun s hs => ?_, hb.values_open⟩
    rw [Element.slots, List.mem_append, List.mem_singleton] at hs
    rcases hs with hs | rfl
    · rw [Resolutions.applyToExpression, Expression.terms_map] at hs
      exact Resolutions.sourced_terms (Arg.expression_open hcall he) s hs
    · intro name value hs
      cases hs
  | @addFilter _ e he =>
    refine ⟨forall_slots_of_append (slots_concat _ _) hb.slots ?_, hb.values_open⟩
    rw [Element.slots, Resolutions.applyToExpression, Expression.terms_map]
    exact Resolutions.sourced_terms (Arg.expression_open hcall he)
  | list hm hc =>
    refine ⟨forall_slots_of_append (slots_pushTriples _ _) hb.slots fun s hs => ?_,
      hb.values_open⟩
    obtain ⟨t, ht, rfl⟩ := List.mem_map.mp hs
    rcases Collection.mem_terms_triples hc ht with hmember | hvar
    · exact Resolutions.sourced_terms (Arg.terms_open hcall hm) _ (List.mem_map_of_mem hmember)
    · exact Slot.sourced_term (Term.isOpen_of_asVariable_eq_none hvar)
  | @setVar _ _ v t hv ht =>
    -- slots of the variable get the new value, and the others keep a value that is still recorded
    constructor
    · refine sourced_substitute hb.slots (fun u hu => ?_) fun other u hne hmem => ?_
      · cases hu
        exact OrderedMap.mem_entries_insert.mpr (.inl ⟨rfl, rfl⟩)
      · exact OrderedMap.mem_entries_insert.mpr (.inr ⟨hne, hmem⟩)
    · intro name value hmem
      rcases OrderedMap.mem_entries_insert.mp hmem with ⟨rfl, rfl⟩ | ⟨_, hmem⟩
      · exact Arg.term_open hcall ht
      · exact hb.values_open name value hmem
  | @unsetVar _ v hv =>
    constructor
    · refine sourced_substitute hb.slots (fun u hu => ?_) fun other u hne hmem => ?_
      · cases hu
      · exact OrderedMap.mem_entries_erase.mpr ⟨hne, hmem⟩
    · intro name value hmem
      exact hb.values_open name value (OrderedMap.mem_entries_erase.mp hmem).2

theorem sourced_run (config : Config) (calls : List (PatternCall × Nat))
    (h : ∀ c ∈ calls, c.1.IsOpen) : ((new config).run calls).Sourced :=
  run_induction (sourced_new config) fun c hc _ _ hb ho => hb.outcome (h c hc) ho

theorem mem_slots_build {b : PatternBuilder} {t : Term} :
    Slot.term t ∈ slots b.build ↔ ∃ u, Slot.term u ∈ slots b.group ∧ u.effective = t := by
  rw [build, effective, slots_mapSlots, List.mem_map]
  constructor
  · intro h
    obtain ⟨s, hs, hmap⟩ := h
    cases s with
    | term u => exact ⟨u, hs, Slot.term.inj hmap⟩
    | projected v => cases hmap
    | target v => cases hmap
  · intro h
    obtain ⟨u, hu, rfl⟩ := h
    exact ⟨.term u, hu, rfl⟩

/-- A resolved variable is emitted exactly if the group mentions a variable that is resolved to
it. -/
theorem Consistent.build_mentions_iff {b : PatternBuilder} (hb : b.Consistent) (hs : b.Sourced)
    {name : String} {value : Term} (h : (name, value) ∈ b.values.entries) :
    b.build.Mentions name ↔
      ∃ other, (other, .free name) ∈ b.values.entries ∧ b.group.Mentions other := by
  constructor
  · intro hmentions
    obtain ⟨t, v, ht, hv, rfl⟩ := hmentions
    obtain ⟨u, hu, rfl⟩ := mem_slots_build.mp ht
    cases u with
    | free name =>
      -- such a slot would have to carry the value of its variable
      cases hv
      cases (hb _ _ h _ hu).binding ⟨name, none⟩ rfl rfl
    | bound other u =>
      have hmem := hs.slots _ hu other u rfl
      have hopen := hs.values_open other u hmem
      -- the value carries none itself, so it is what is emitted
      rw [Term.effective, hopen.effective_eq] at hv
      cases u with
      | free name =>
        cases hv
        exact ⟨other, hmem, .bound other (.free name), _, hu, rfl, rfl⟩
      | bound name' value' => exact absurd rfl (hopen name' value')
      | _ => cases hv
    | _ => cases hv
  · intro hother
    obtain ⟨other, hmem, t, ⟨_, binding⟩, ht, hv, rfl⟩ := hother
    have hbinding : binding = some (.free name) := (hb _ _ hmem _ ht).binding _ hv rfl
    subst hbinding
    have heff : t.effective = .free name := by rw [Term.eq_ofVariable_of_asVariable hv]; rfl
    exact ⟨.free name, ⟨name, none⟩, mem_slots_build.mpr ⟨t, ht, heff⟩, rfl, rfl⟩

/-- After any calls whose arguments carry no values, failing ones included, a variable that is
resolved is emitted exactly if another variable is resolved to it and stands in the group. -/
theorem run_mentions_iff (config : Config) (calls : List (PatternCall × Nat))
    (hopen : ∀ c ∈ calls, c.1.IsOpen) (name : String) (value : Term)
    (h : (name, value) ∈ ((new config).run calls).values.entries) :
    ((new config).run calls).build.Mentions name ↔
      ∃ other, (other, .free name) ∈ ((new config).run calls).values.entries ∧
        ((new config).run calls).group.Mentions other :=
  (consistent_run config calls).build_mentions_iff (sourced_run config calls hopen) h

/-- Adds the triple `?x <p> <o>`, and resolves `?x` to `?y` and then `?y` to `<c>`. -/
def chainedCalls : List (PatternCall × Nat) :=
  [(.addWhere (.value (.free "x")) (.value (.predicate (.iri ⟨"p"⟩))) (.value (.iri ⟨"o"⟩)), 0),
    (.setVar (.value (.free "x")) (.value (.free "y")), 0),
    (.setVar (.value (.free "y")) (.value (.iri ⟨"c"⟩)), 0)]

/-- A variable that is resolved to an IRI is emitted in the slot of one that was resolved to it
before. -/
theorem run_mentions_chained :
    (∀ c ∈ chainedCalls, c.1.IsOpen) ∧
      ("y", Term.iri ⟨"c"⟩) ∈ ((new {}).run chainedCalls).values.entries ∧
      ((new {}).run chainedCalls).build.Mentions "y" := by
  have hopen : ∀ c ∈ chainedCalls, c.1.IsOpen := by
    simp only [chainedCalls, List.forall_mem_cons, List.not_mem_nil, false_imp_iff, implies_true,
      and_true]
    exact ⟨⟨nofun, Path.isOpen_predicate.mpr nofun, nofun⟩, nofun, nofun⟩
  have hvalue : ("y", Term.iri ⟨"c"⟩) ∈ ((new {}).run chainedCalls).values.entries := by decide
  refine ⟨hopen, hvalue, (run_mentions_iff {} _ hopen "y" _ hvalue).mpr ⟨"x", by decide, ?_⟩⟩
  exact ⟨.bound "x" (.free "y"), _, by decide, rfl, rfl⟩

end PatternBuilder

end GraphPattern
