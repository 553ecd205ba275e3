import GraphPattern.Proofs.Builder.Computed
import GraphPattern.Proofs.Pattern.Runs

/-!
# What is merged at the end of a group

Each call that adds something adds one element of its own (`PatternBuilder.element?`), a triple or a
list a block of its own, an alternative a union of its own. The group of a builder is the list of these
elements with each longest run of blocks as one block and each longest run of unions as one union
(`PatternBuilder.run_group`). Calls that fail and calls that resolve or free a variable do not count:
they neither start an element nor end a run, as long as no computed variable is resolved, whose `BIND`
would be removed.
-/

namespace GraphPattern

open BuildM Steps

/-- The kind of element that a call adds, if it adds one. -/
def PatternCall.kind? : PatternCall → Option String
  | .addWhere _ _ _ => some "block"
  | .list _ => some "block"
  | .addOptional _ _ => some "optional"
  | .addUnion _ _ => some "union"
  | .addMinus _ _ => some "minus"
  | .addSubQuery _ _ => some "subquery"
  | .addBind _ _ => some "bind"
  | .addFilter _ => some "filter"
  | _ => none

namespace PatternBuilder

/-! ## The element of a call -/

/-- The copy of a group that is attached when the next label is tried with `next` and the labels to be
replaced are visited in an order. -/
def copy? (b : PatternBuilder) (next : Nat) (g : Group) (order : LabelOrder) : Option Group :=
  match b.allocator.makeDisjoint g order ⟨next, b.group.labels⟩ with
  | .ok (_, copy) _ => some (b.values.applyToGroup copy)
  | .error _ _ => none

/-- The copy of a pattern that a call is given and attaches. -/
def attached? (b : PatternBuilder) (next : Nat) (given : Except Error (Group × Prefixes))
    (order : LabelOrder) : Option Group :=
  given.toOption.bind fun g => b.copy? next g.1 order

/-- The triples of a list of terms that is added when the next label is tried with `next`. -/
def chain? (b : PatternBuilder) (next : Nat) (members : List Term) : Option (List Triple) :=
  match Collection.ofTerms b.allocator (members.map b.values.applyToTerm) ⟨next, b.group.labels⟩ with
  | .ok c _ => some c.triples
  | .error _ _ => none

/-- The element that a call adds, if it succeeds, when the next label is tried with `next`. -/
def element? (b : PatternBuilder) (next : Nat) : PatternCall → Option Element
  | .addWhere subject predicate object =>
    (Triple.ofArgs b.prefixes subject predicate object).toOption.map fun t =>
      .block [b.values.applyToTriple t]
  | .list terms =>
    ((terms.mapM (Arg.term b.prefixes)).toOption.bind (b.chain? next)).map .block
  | .addOptional pattern order =>
    (b.attached? next (pattern.body b.prefixes) order).map .optional
  | .addUnion pattern order =>
    (b.attached? next (pattern.alternative b.prefixes) order).map fun copy => .union [copy]
  | .addMinus pattern order => (b.attached? next (pattern.body b.prefixes) order).map .minus
  | .addSubQuery query order => (b.copy? next [query.toElement] order).bind List.head?
  | .addBind expression target =>
    target.var.toOption.bind fun v =>
      if (b.valueOf? v.name).isSome then none
      else (expression.expression b.prefixes).toOption.map fun e =>
        .bind (b.values.applyToExpression e) v
  | .addFilter condition =>
    (condition.expression b.prefixes).toOption.map fun e => .filter (b.values.applyToExpression e)
  | _ => none

variable {s t : Session PatternBuilder}

/-! ## Calls that attach a pattern -/

theorem copy?_of_adopt_eq_ok {g h : Group} {source : Prefixes} {order : LabelOrder}
    (hok : adopt g source order s = .ok h t) :
    s.builder.copy? s.nextLabel g order = some h ∧ t.builder.group = s.builder.group := by
  obtain ⟨count, copy, l, hcopy, rfl, rfl⟩ := adopt_eq_ok hok
  rw [copy?, hcopy]
  exact ⟨rfl, rfl⟩

theorem copy?_of_adopt_eq_error {g : Group} {source : Prefixes} {order : LabelOrder} {e : Error}
    (h : adopt g source order s = .error e t) :
    s.builder.copy? s.nextLabel g order = none := by
  simp only [adopt, bind_eq_error, builder_eq_ok, builder_ne_error, update_ne_error, pure_ne_error,
    and_false, exists_false, or_false, false_or] at h
  obtain ⟨_, _, ⟨rfl, rfl⟩, hl⟩ := h
  obtain ⟨cause, l, hcopy, _⟩ := withLabels_eq_error hl
  rw [copy?, hcopy]

variable {pattern : PatternBuilder → Except Error (Group × Prefixes)} {order : LabelOrder}
  {put : Group → PatternBuilder → PatternBuilder}

theorem attached?_of_attach_eq_ok {u : Unit} (h : attach pattern order put s = .ok u t) :
    ∃ copy b, s.builder.attached? s.nextLabel (pattern s.builder) order = some copy ∧
      b.group = s.builder.group ∧ t.builder = put copy b := by
  simp only [attach, bind_eq_ok, builder_eq_ok, ofExcept_eq_ok, update_eq_ok] at h
  obtain ⟨_, _, ⟨rfl, rfl⟩, given, _, ⟨hp, rfl⟩, copy, r, ha, rfl⟩ := h
  obtain ⟨hcopy, hgroup⟩ := copy?_of_adopt_eq_ok ha
  exact ⟨copy, r.builder, by rw [attached?, hp]; exact hcopy, hgroup, rfl⟩

theorem attached?_of_attach_eq_error {e : Error} (h : attach pattern order put s = .error e t) :
    s.builder.attached? s.nextLabel (pattern s.builder) order = none := by
  simp only [attach, bind_eq_error, builder_eq_ok, builder_ne_error, ofExcept_eq_ok,
    ofExcept_eq_error, update_ne_error, and_false, exists_false, or_false, false_or] at h
  obtain ⟨_, _, ⟨rfl, rfl⟩, ⟨hp, rfl⟩ | ⟨given, _, ⟨hp, rfl⟩, ha⟩⟩ := h
  · rw [attached?, hp]
    rfl
  · rw [attached?, hp]
    exact copy?_of_adopt_eq_error ha

/-- A copy of a nested query is one. -/
theorem exists_subQuery_of_copy? {b : PatternBuilder} {next : Nat} {query : SubQuery} {h : Group}
    (hcopy : b.copy? next [query.toElement] order = some h) :
    ∃ d vs g p, h = [.subQuery d vs g p] := by
  unfold copy? at hcopy
  split at hcopy
  · rename_i count copy l hok
    cases hcopy
    obtain ⟨r, rfl⟩ := Allocator.makeDisjoint_eq_ok hok
    exact Resolutions.applyToGroup_subQuery _ _ _ _ _
  · cases hcopy

/-! ## Calls that add an element -/

/-- The group is the one before with the element of the call, joined with the last one where they
join. -/
theorem element?_of_perform_eq_ok {call : PatternCall} {kind : String} {r : Option Term}
    (hkind : call.kind? = some kind) (h : perform call s = .ok r t) :
    ∃ e, s.builder.element? s.nextLabel call = some e ∧ e.kind = kind ∧
      t.builder.group = s.builder.group.pushJoining e := by
  cases call with
  | addWhere subject predicate object =>
    cases hkind
    have h := ok_of_void h
    simp only [addWhere, bind_eq_ok, builder_eq_ok, ofExcept_eq_ok, update_eq_ok] at h
    obtain ⟨_, _, ⟨rfl, rfl⟩, triple, _, ⟨ht, rfl⟩, rfl⟩ := h
    refine ⟨_, by rw [element?, ht]; rfl, rfl, ?_⟩
    exact Group.pushTriple_eq_pushJoining _ _
  | list terms =>
    cases hkind
    rw [perform, map_eq_ok] at h
    obtain ⟨_, h, _⟩ := h
    simp only [list, bind_eq_ok, builder_eq_ok, ofExcept_eq_ok, update_eq_ok, pure_eq_ok] at h
    obtain ⟨_, _, ⟨rfl, rfl⟩, members, _, ⟨hm, rfl⟩, c, _, hl, _, _, rfl, _, rfl⟩ := h
    obtain ⟨l, hc, rfl⟩ := withLabels_eq_ok hl
    have hchain : s.builder.chain? s.nextLabel members = some c.triples := by rw [chain?, hc]
    refine ⟨.block c.triples, ?_, rfl, Group.pushTriples_eq_pushJoining ?_ _⟩
    · rw [element?, hm]
      exact congrArg (Option.map Element.block) hchain
    · exact Collection.triples_ne_nil hc
  | addOptional pattern order =>
    cases hkind
    obtain ⟨copy, b, hcopy, hb, ht⟩ :=
      attached?_of_attach_eq_ok (addOptional_eq_attach _ _ ▸ ok_of_void h)
    refine ⟨.optional copy, congrArg (Option.map Element.optional) hcopy, rfl, ?_⟩
    rw [ht, Group.pushJoining_of_not_joins (by simp [Element.joins]), ← hb]
    rfl
  | addUnion pattern order =>
    cases hkind
    obtain ⟨copy, b, hcopy, hb, ht⟩ :=
      attached?_of_attach_eq_ok (addUnion_eq_attach _ _ ▸ ok_of_void h)
    refine ⟨.union [copy], congrArg (Option.map fun g => Element.union [g]) hcopy, rfl, ?_⟩
    rw [ht, ← Group.pushAlternative_eq_pushJoining, ← hb]
  | addMinus pattern order =>
    cases hkind
    obtain ⟨copy, b, hcopy, hb, ht⟩ :=
      attached?_of_attach_eq_ok (addMinus_eq_attach _ _ ▸ ok_of_void h)
    refine ⟨.minus copy, congrArg (Option.map Element.minus) hcopy, rfl, ?_⟩
    rw [ht, Group.pushJoining_of_not_joins (by simp [Element.joins]), ← hb]
    rfl
  | addSubQuery query order =>
    cases hkind
    have h := ok_of_void h
    simp only [addSubQuery, bind_eq_ok, update_eq_ok] at h
    obtain ⟨_, r, ha, rfl⟩ := h
    obtain ⟨hcopy, hgroup⟩ := copy?_of_adopt_eq_ok ha
    obtain ⟨d, vs, g, p, rfl⟩ := exists_subQuery_of_copy? hcopy
    refine ⟨.subQuery d vs g p, by rw [element?, hcopy]; rfl, rfl, ?_⟩
    rw [Group.pushJoining_of_not_joins (by simp [Element.joins]), ← hgroup]
    rfl
  | addBind expression target =>
    cases hkind
    have h := ok_of_void h
    simp only [addBind, bind_eq_ok, builder_eq_ok, ofExcept_eq_ok] at h
    obtain ⟨v, _, ⟨hv, rfl⟩, _, _, ⟨rfl, rfl⟩, h⟩ := h
    cases hfree : s.builder.valueOf? v.name with
    | some value => simp [hfree] at h
    | none =>
      simp only [hfree, bind_eq_ok, ofExcept_eq_ok, update_eq_ok] at h
      obtain ⟨e, _, ⟨he, rfl⟩, rfl⟩ := h
      refine ⟨.bind (s.builder.values.applyToExpression e) v, ?_, rfl, ?_⟩
      · simp [element?, hv, hfree, he, Except.toOption]
      · rw [Group.pushJoining_of_not_joins (by simp [Element.joins])]
        rfl
  | addFilter condition =>
    cases hkind
    have h := ok_of_void h
    simp only [addFilter, bind_eq_ok, builder_eq_ok, ofExcept_eq_ok, update_eq_ok] at h
    obtain ⟨_, _, ⟨rfl, rfl⟩, e, _, ⟨he, rfl⟩, rfl⟩ := h
    refine ⟨_, by rw [element?, he]; rfl, rfl, ?_⟩
    rw [Group.pushJoining_of_not_joins (by simp [Element.joins])]
    rfl
  | _ => cases hkind

/-- A call that fails adds no element. -/
theorem element?_of_perform_eq_error {call : PatternCall} {e : Error}
    (h : perform call s = .error e t) : s.builder.element? s.nextLabel call = none := by
  cases call with
  | addWhere subject predicate object =>
    have h := void_eq_error.mp h
    simp only [addWhere, bind_eq_error, builder_eq_ok, builder_ne_error, ofExcept_eq_error,
      update_ne_error, and_false, exists_false, or_false, false_or] at h
    obtain ⟨_, _, ⟨rfl, rfl⟩, ht, rfl⟩ := h
    rw [element?, ht]
    rfl
  | list terms =>
    rw [perform, map_eq_error] at h
    simp only [list, bind_eq_error, builder_eq_ok, builder_ne_error, ofExcept_eq_ok,
      ofExcept_eq_error, update_ne_error, pure_ne_error, and_false, exists_false, or_false,
      false_or] at h
    obtain ⟨_, _, ⟨rfl, rfl⟩, ⟨hm, rfl⟩ | ⟨members, _, ⟨hm, rfl⟩, hl⟩⟩ := h
    · rw [element?, hm]
      rfl
    · obtain ⟨cause, l, hc, _⟩ := withLabels_eq_error hl
      have hchain : s.builder.chain? s.nextLabel members = none := by rw [chain?, hc]
      rw [element?, hm]
      exact congrArg (Option.map Element.block) hchain
  | addOptional pattern order =>
    exact congrArg (Option.map Element.optional)
      (attached?_of_attach_eq_error (addOptional_eq_attach _ _ ▸ void_eq_error.mp h))
  | addUnion pattern order =>
    exact congrArg (Option.map fun g => Element.union [g])
      (attached?_of_attach_eq_error (addUnion_eq_attach _ _ ▸ void_eq_error.mp h))
  | addMinus pattern order =>
    exact congrArg (Option.map Element.minus)
      (attached?_of_attach_eq_error (addMinus_eq_attach _ _ ▸ void_eq_error.mp h))
  | addSubQuery query order =>
    have h := void_eq_error.mp h
    simp only [addSubQuery, bind_eq_error, update_ne_error, and_false, exists_false, or_false] at h
    rw [element?, copy?_of_adopt_eq_error h]
    rfl
  | addBind expression target =>
    have h := void_eq_error.mp h
    simp only [addBind, bind_eq_error, builder_eq_ok, builder_ne_error, ofExcept_eq_ok,
      ofExcept_eq_error, false_or] at h
    obtain ⟨hv, rfl⟩ | ⟨v, _, ⟨hv, rfl⟩, _, _, ⟨rfl, rfl⟩, h⟩ := h
    · rw [element?, hv]
      rfl
    · cases hfree : s.builder.valueOf? v.name with
      | some value => simp [element?, hv, hfree, Except.toOption]
      | none =>
        simp only [hfree, bind_eq_error, ofExcept_eq_error, update_ne_error, and_false,
          exists_false, or_false] at h
        simp [element?, hv, h.1, Except.toOption]
  | addFilter condition =>
    have h := void_eq_error.mp h
    simp only [addFilter, bind_eq_error, builder_eq_ok, builder_ne_error, ofExcept_eq_error,
      update_ne_error, and_false, exists_false, or_false, false_or] at h
    obtain ⟨_, _, ⟨rfl, rfl⟩, he, rfl⟩ := h
    rw [element?, he]
    rfl
  | _ => rfl

/-! ## Runs -/

/-- The elements of the calls so far, and of one more. A call that adds an element puts it last; one
that resolves or frees a variable does so in each of them. -/
def addedBy (b : PatternBuilder) (es : List Element) (call : PatternCall) (next : Nat) :
    List Element :=
  match call with
  | .setVar var value =>
    match var.var, value.term b.prefixes with
    | .ok v, .ok t => es.map (Element.substitute v.name (some t))
    | _, _ => es
  | .unsetVar var =>
    match var.var with
    | .ok v => es.map (Element.substitute v.name none)
    | .error _ => es
  | call => es ++ (b.element? next call).toList

/-- The elements that calls add to those of earlier calls, each an element of its own. -/
def added (b : PatternBuilder) (es : List Element) : List (PatternCall × Nat) → List Element
  | [] => es
  | (call, next) :: calls => (b.after call next).added (b.addedBy es call next) calls

/-- Whether a call succeeds. -/
def succeeds (b : PatternBuilder) (call : PatternCall) (next : Nat) : Bool :=
  match perform call ⟨b, next⟩ with
  | .ok _ _ => true
  | .error _ _ => false

/-- The kinds of the elements that the successful ones of some calls add, in order. -/
def addedKinds (b : PatternBuilder) : List (PatternCall × Nat) → List String
  | [] => []
  | (call, next) :: calls =>
    (if b.succeeds call next then call.kind?.toList else []) ++ (b.after call next).addedKinds calls

theorem addedBy_of_kind? {b : PatternBuilder} {es : List Element} {call : PatternCall} {next : Nat}
    {kind : String} (h : call.kind? = some kind) :
    b.addedBy es call next = es ++ (b.element? next call).toList := by
  cases call with
  | setVar var value => cases h
  | unsetVar var => cases h
  | _ => rfl

/-- Whether no element of the group is a `BIND` that a call removes, if it succeeds. -/
def Spares (b : PatternBuilder) (call : PatternCall) (next : Nat) : Prop :=
  ∀ var value v, call = .setVar var value → b.succeeds call next = true → var.var = .ok v →
    ∀ e ∈ b.group, e.isBindOf v.name = false

section Step

variable {b : PatternBuilder} {es : List Element} {call : PatternCall} {next : Nat}

theorem joined_setVar {var value : Arg Term} (hb : b.group = Group.joined es)
    (h : b.Spares (.setVar var value) next) :
    (b.after (.setVar var value) next).group =
      Group.joined (b.addedBy es (.setVar var value) next) := by
  cases hr : perform (.setVar var value) ⟨b, next⟩ with
  | ok r t =>
    have hr' := ok_of_void hr
    simp only [setVar, bind_eq_ok, builder_eq_ok, ofExcept_eq_ok, update_eq_ok] at hr'
    obtain ⟨_, _, ⟨rfl, rfl⟩, v, _, ⟨hv, rfl⟩, u, _, ⟨hu, rfl⟩, rfl⟩ := hr'
    have hspared : ∀ e ∈ Group.joined es, e.isBindOf v.name = false := by
      rw [← hb]
      exact h var value v rfl (by rw [succeeds, hr]) hv
    simp only [after, hr, addedBy, hv, hu, hb]
    exact Group.substitute_joined fun _ => hspared
  | error e t =>
    have hr' := void_eq_error.mp hr
    simp only [setVar, bind_eq_error, builder_eq_ok, builder_ne_error, ofExcept_eq_ok,
      ofExcept_eq_error, update_ne_error, and_false, exists_false, or_false, false_or] at hr'
    have hsame : b.addedBy es (.setVar var value) next = es := by
      obtain ⟨_, _, ⟨rfl, rfl⟩, ⟨hv, _⟩ | ⟨v, _, ⟨hv, rfl⟩, hu, _⟩⟩ := hr'
      · rw [addedBy, hv]
      · simp only [addedBy, hv, hu]
    simp only [after, hr, builder_of_perform_error hr, hsame, hb]

theorem joined_unsetVar {var : Arg Term} (hb : b.group = Group.joined es) :
    (b.after (.unsetVar var) next).group =
      Group.joined (b.addedBy es (.unsetVar var) next) := by
  cases hv : var.var with
  | ok v =>
    simp only [addedBy, hv, after, perform, unsetVar]
    exact (congrArg (Group.substitute v.name none) hb).trans (Group.substitute_joined (by simp))
  | error e =>
    simp only [addedBy, hv, after, perform, unsetVar]
    exact hb

/-- What one call does: the group is that of the elements of all calls so far, joined. -/
theorem joined_after (hb : b.group = Group.joined es) (h : b.Spares call next) :
    (b.after call next).group = Group.joined (b.addedBy es call next) := by
  cases hkind : call.kind? with
  | some kind =>
    rw [after, addedBy_of_kind? hkind]
    split
    · rename_i r t hr
      obtain ⟨e, he, _, hgroup⟩ := element?_of_perform_eq_ok hkind hr
      rw [hgroup, he, hb, Option.toList_some, Group.joined_concat]
    · rename_i e t hr
      rw [builder_of_perform_error hr, element?_of_perform_eq_error hr, hb, Option.toList_none,
        List.append_nil]
  | none =>
    cases call with
    | addPrefix label ns =>
      show b.group = Group.joined (es ++ [])
      rw [List.append_nil, hb]
    | setVar var value => exact joined_setVar hb h
    | unsetVar var => exact joined_unsetVar hb
    | _ => cases hkind

/-- A successful call that adds an element adds one of its kind, and no other call adds any. -/
theorem map_kind_addedBy :
    (b.addedBy es call next).map Element.kind =
      es.map Element.kind ++ if b.succeeds call next then call.kind?.toList else [] := by
  have hsubstitute : ∀ name value,
      (es.map (Element.substitute name value)).map Element.kind = es.map Element.kind := by
    intro name value
    rw [List.map_map]
    exact List.map_congr_left fun e _ => Element.kind_substitute name value e
  cases hkind : call.kind? with
  | some kind =>
    rw [addedBy_of_kind? hkind, List.map_append, succeeds]
    split
    · rename_i r t hr
      obtain ⟨e, he, hek, _⟩ := element?_of_perform_eq_ok hkind hr
      rw [he, if_pos rfl, Option.toList_some, Option.toList_some, List.map_singleton, hek]
    · rename_i e t hr
      rw [element?_of_perform_eq_error hr]
      rfl
  | none =>
    rw [Option.toList_none, ite_self, List.append_nil]
    cases call with
    | addPrefix label ns => exact congrArg (List.map Element.kind) (List.append_nil es)
    | setVar var value =>
      unfold addedBy
      dsimp only
      split
      · exact hsubstitute _ _
      · rfl
    | unsetVar var =>
      unfold addedBy
      dsimp only
      split
      · exact hsubstitute _ _
      · rfl
    | _ => cases hkind

theorem isOwn_element? {e : Element} (h : b.element? next call = some e) : e.IsOwn := by
  cases call with
  | addWhere subject predicate object =>
    obtain ⟨t, _, rfl⟩ := Option.map_eq_some_iff.mp h
    exact List.cons_ne_nil _ _
  | list terms =>
    obtain ⟨triples, hchain, rfl⟩ := Option.map_eq_some_iff.mp h
    obtain ⟨members, _, hchain⟩ := Option.bind_eq_some_iff.mp hchain
    unfold chain? at hchain
    split at hchain
    · rename_i c l hc
      cases hchain
      exact Collection.triples_ne_nil hc
    · cases hchain
  | addOptional pattern order =>
    obtain ⟨copy, _, rfl⟩ := Option.map_eq_some_iff.mp h
    trivial
  | addUnion pattern order =>
    obtain ⟨copy, _, rfl⟩ := Option.map_eq_some_iff.mp h
    rfl
  | addMinus pattern order =>
    obtain ⟨copy, _, rfl⟩ := Option.map_eq_some_iff.mp h
    trivial
  | addSubQuery query order =>
    obtain ⟨copy, hcopy, hhead⟩ := Option.bind_eq_some_iff.mp h
    obtain ⟨d, vs, g, p, rfl⟩ := exists_subQuery_of_copy? hcopy
    cases hhead
    trivial
  | addBind expression target =>
    obtain ⟨v, _, h⟩ := Option.bind_eq_some_iff.mp h
    split at h
    · cases h
    · obtain ⟨x, _, rfl⟩ := Option.map_eq_some_iff.mp h
      trivial
  | addFilter condition =>
    obtain ⟨x, _, rfl⟩ := Option.map_eq_some_iff.mp h
    trivial
  | _ => cases h

theorem isOwn_addedBy (hes : ∀ e ∈ es, e.IsOwn) : ∀ e ∈ b.addedBy es call next, e.IsOwn := by
  have hsubstitute : ∀ name value, ∀ e ∈ es.map (Element.substitute name value), e.IsOwn := by
    intro name value
    exact List.forall_mem_map.mpr fun e he => (hes e he).substitute name value
  unfold addedBy
  split
  · split
    · exact hsubstitute _ _
    · exact hes
  · split
    · exact hsubstitute _ _
    · exact hes
  · refine List.forall_mem_append.mpr ⟨hes, fun e he => ?_⟩
    exact isOwn_element? (Option.mem_toList.mp he)

end Step

/-- After some calls, the group is that of the elements of all calls, joined. -/
theorem joined_run {b : PatternBuilder} {es : List Element} {calls : List (PatternCall × Nat)}
    (hb : b.group = Group.joined es)
    (h : ∀ front call next, front ++ [(call, next)] <+: calls → (b.run front).Spares call next) :
    (b.run calls).group = Group.joined (b.added es calls) := by
  -- the hypothesis is about calls in front of a call, so the first one is put in front of the rest
  induction calls generalizing b es with
  | nil => exact hb
  | cons c calls ih =>
    obtain ⟨call, next⟩ := c
    refine ih (joined_after hb (h [] call next (List.prefix_append [(call, next)] calls))) ?_
    intro front other n hpre
    exact h ((call, next) :: front) other n ((List.prefix_cons_inj _).mpr hpre)

theorem map_kind_added (b : PatternBuilder) (es : List Element)
    (calls : List (PatternCall × Nat)) :
    (b.added es calls).map Element.kind = es.map Element.kind ++ b.addedKinds calls := by
  induction calls generalizing b es with
  | nil => exact (List.append_nil _).symm
  | cons c calls ih => rw [added, ih, map_kind_addedBy, addedKinds, List.append_assoc]

theorem isOwn_added {b : PatternBuilder} {es : List Element} (hes : ∀ e ∈ es, e.IsOwn)
    (calls : List (PatternCall × Nat)) : ∀ e ∈ b.added es calls, e.IsOwn := by
  induction calls generalizing b es with
  | nil => exact hes
  | cons c calls ih => exact ih (isOwn_addedBy hes)

/-- Whatever is called, in whatever order, failing calls included, as long as no call resolves a
variable that the group itself computes: the group holds the elements of the successful calls, in
order, where each longest run of blocks is one block and each longest run of unions is one union. The
triples and alternatives are those of the calls, and nothing else is merged. -/
theorem run_group (config : Config) (calls : List (PatternCall × Nat))
    (h : ∀ front call next, front ++ [(call, next)] <+: calls →
      ((new config).run front).Spares call next) :
    let elements := (new config).added [] calls
    let group := ((new config).run calls).group
    group = Group.joined elements ∧
      elements.map Element.kind = (new config).addedKinds calls ∧
      (∀ e ∈ elements, e.IsOwn) ∧
      group.triples = elements.flatMap Element.triples ∧
      group.flatMap Element.alternatives = elements.flatMap Element.alternatives ∧
      group.filter (fun e => !e.joins e) = elements.filter fun e => !e.joins e := by
  intro elements group
  have hnew : (new config).group = Group.joined [] := rfl
  have hgroup : group = Group.joined elements := joined_run hnew h
  refine ⟨hgroup, map_kind_added _ [] calls, isOwn_added (by simp) calls, ?_, ?_, ?_⟩
  · rw [hgroup, Group.triples_joined]
  · rw [hgroup, Group.alternatives_joined]
  · rw [hgroup, Group.filter_joined]

/-- The triple `?x <p> <o>` twice, where `?x` is resolved in between, and two alternatives with a call
in between that fails. -/
def mergingCalls : List (PatternCall × Nat) :=
  let triple : PatternCall :=
    .addWhere (.value (.free "x")) (.value (.predicate (.iri ⟨"p"⟩))) (.value (.iri ⟨"o"⟩))
  [(triple, 0), (.setVar (.value (.free "x")) (.value (.iri ⟨"c"⟩)), 0), (triple, 0),
    (.addUnion (.group [] .empty), 0), (.list [], 0), (.addUnion (.group [] .empty), 0)]

/-- One block and one union. -/
theorem run_group_interrupted :
    (∀ front call next, front ++ [(call, next)] <+: mergingCalls →
      ((new {}).run front).Spares call next) ∧
      ((new {}).run mergingCalls).group =
        [.block [⟨.bound "x" (.iri ⟨"c"⟩), .predicate (.iri ⟨"p"⟩), .iri ⟨"o"⟩⟩,
          ⟨.bound "x" (.iri ⟨"c"⟩), .predicate (.iri ⟨"p"⟩), .iri ⟨"o"⟩⟩],
        .union [[], []]] := by
  have hspares : ∀ front call next, front ++ [(call, next)] <+: mergingCalls →
      ((new {}).run front).Spares call next := by
    rintro front call next ⟨rest, hrest⟩ var value v rfl - -
    -- only the second call resolves a variable, and then the group is one block
    match front, hrest with
    | [c], hrest =>
      cases hrest
      show ∀ e ∈ [Element.block _], e.isBindOf v.name = false
      exact List.forall_mem_singleton.mpr rfl
    | [], hrest => cases hrest
    | [_, _], hrest => cases hrest
    | [_, _, _], hrest => cases hrest
    | [_, _, _, _], hrest => cases hrest
    | [_, _, _, _, _], hrest => cases hrest
    | _ :: _ :: _ :: _ :: _ :: _ :: _, hrest => simp [mergingCalls] at hrest
  exact ⟨hspares, (run_group {} mergingCalls hspares).1.trans rfl⟩

end PatternBuilder

end GraphPattern
