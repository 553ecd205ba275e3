import GraphPattern.Proofs.Builder.Attachment
import GraphPattern.Proofs.Builder.Resolution
import GraphPattern.Proofs.Pattern.FoundValue

/-!
# Resolving early or late

A variable that is open can be resolved before or after something is added: either way the call
gives the same or fails for the same reason, and the session ends up the same
(`PatternBuilder.perform_resolveIn`). What is added early is reached by the substitution in the
whole group, and what is added late by the replay of the resolutions, of which the new one is the
last. An IRI or a literal brings no blank node, so labels are the same either way too, as far as they
do not depend on the order in which an attached pattern is visited. Nothing says that this is the same
both times, and then the labels of the copy may change places (`PatternBuilder.perform_setVar_comm`).
-/

namespace GraphPattern

/-- Whether the term is an IRI or a literal. -/
def Term.IsConstant : Term → Prop
  | .iri _ => True
  | .literal _ => True
  | _ => False

/-- A group in which the variable is neither computed nor carries a value in a slot. -/
structure Group.LeavesOpen (name : String) (g : Group) : Prop where
  free : ∀ s ∈ slots g, ∀ v, s.var? = some v → v.name = name → v.binding = none
  not_target : ∀ s ∈ slots g, s.isTargetOf name = false

section

variable {name : String} {t : Term}

/-! ## Slots -/

namespace Term

theorem IsConstant.node?_eq_none (h : t.IsConstant) : t.node? = none := by
  cases t <;> first | rfl | cases h

theorem IsConstant.variables_eq_nil (h : t.IsConstant) : t.variables = [] := by
  cases t <;> first | rfl | cases h

theorem resolve_free_self (name : String) (t : Term) :
    (free name).resolve name (some t) = .bound name t := by
  show ofVariable (Variable.resolve name (some t) ⟨name, none⟩) = _
  rw [Variable.resolve, if_pos rfl, ofVariable]

end Term

/-- A slot that is written is written to an open place of the variable. -/
theorem Slot.map_resolve_eq_or_free {s : Slot}
    (hfree : ∀ v, s.var? = some v → v.name = name → v.binding = none) :
    s.map (.resolve name (some t)) = s ∨
      s = .term (.free name) ∧ s.map (.resolve name (some t)) = .term (.bound name t) ∨
      s = .projected ⟨name, none⟩ ∧
        s.map (.resolve name (some t)) = .projected ⟨name, some t⟩ := by
  cases s with
  | term u =>
    cases hu : u.asVariable with
    | none =>
      refine .inl (congrArg Slot.term ?_)
      exact Term.resolve_of_asVariable_eq_none hu name (some t)
    | some v =>
      by_cases hn : v.name = name
      · obtain ⟨other, binding⟩ := v
        obtain rfl : other = name := hn
        obtain rfl : binding = none := hfree _ hu rfl
        obtain rfl : u = .free other := Term.eq_ofVariable_of_asVariable hu
        exact .inr (.inl ⟨rfl, congrArg Slot.term (Term.resolve_free_self other t)⟩)
      · refine .inl (Slot.map_resolve_eq_self fun w hw => ?_)
        obtain rfl : v = w := Option.some.inj (hu.symm.trans hw)
        rw [Variable.resolve, if_neg hn]
  | projected v =>
    by_cases hn : v.name = name
    · obtain ⟨other, binding⟩ := v
      obtain rfl : other = name := hn
      obtain rfl : binding = none := hfree _ rfl rfl
      exact .inr (.inr ⟨rfl, congrArg Slot.projected (if_pos rfl)⟩)
    · exact .inl (congrArg Slot.projected (if_neg hn))
  | target v => exact .inl rfl

/-! ## Groups -/

namespace Group

variable {g : Group}

theorem substitute_of_not_target (h : ∀ s ∈ slots g, s.isTargetOf name = false) (t : Term) :
    substitute name (some t) g = mapSlots (.resolve name (some t)) g := by
  show mapSlots _ (withoutBinds name g) = _
  rw [withoutBinds_eq_self h]

namespace LeavesOpen

theorem substitute_eq (h : g.LeavesOpen name) (t : Term) :
    substitute name (some t) g = mapSlots (.resolve name (some t)) g :=
  substitute_of_not_target h.not_target t

/-- No label comes or goes when an open place gets a constant. -/
theorem labels_substitute (h : g.LeavesOpen name) (ht : t.IsConstant) :
    (substitute name (some t) g).labels = g.labels := by
  rw [h.substitute_eq, labels, labels, nodes, nodes, slots_mapSlots, List.filterMap_map]
  refine congrArg LabelSet.ofNodes (List.filterMap_congr fun s hs => ?_)
  show (s.map _).node? = s.node?
  rcases Slot.map_resolve_eq_or_free (t := t) (h.free s hs) with heq | ⟨rfl, heq⟩ | ⟨rfl, heq⟩
  · rw [heq]
  · rw [heq]
    exact ht.node?_eq_none
  · rw [heq]
    exact ht.node?_eq_none

/-- The value that another variable carries is the same after an open place got a constant. -/
theorem findBinding_substitute (h : g.LeavesOpen name) (ht : t.IsConstant) {other : String}
    (hne : other ≠ name) :
    (substitute name (some t) g).findBinding other = g.findBinding other := by
  rw [h.substitute_eq]
  refine findBinding_mapSlots fun s hs => ?_
  rcases Slot.map_resolve_eq_or_free (t := t) (h.free s hs) with heq | ⟨rfl, heq⟩ | ⟨rfl, heq⟩
  · rw [heq]
  · rw [heq]
    simp [Slot.valueOf, Slot.variables, Term.variables, ht.variables_eq_nil, Ne.symm hne]
  · rw [heq]
    simp [Slot.valueOf, Slot.variables, ht.variables_eq_nil, Ne.symm hne]

theorem substitute_concat (h : g.LeavesOpen name) {e : Element} (he : e.isBindOf name = false) :
    substitute name (some t) (g ++ [e]) =
      substitute name (some t) g ++ [(e.withoutBinds name).mapSlots (.resolve name (some t))] := by
  rw [h.substitute_eq]
  show mapSlots _ (withoutBinds name (g ++ [e])) = _
  rw [withoutBinds_concat h.not_target he, mapSlots_concat]

theorem substitute_pushAlternative (h : g.LeavesOpen name) (alternative : Group) :
    substitute name (some t) (g.pushAlternative alternative) =
      pushAlternative (substitute name (some t) g) (substitute name (some t) alternative) := by
  rw [h.substitute_eq]
  show mapSlots _ (withoutBinds name (g.pushAlternative alternative)) = _
  rw [withoutBinds_pushAlternative h.not_target, mapSlots_pushAlternative]
  rfl

/-- Triples at the end of a group compute nothing. -/
theorem substitute_pushTriples (h : g.LeavesOpen name) (ts : List Triple) :
    substitute name (some t) (g.pushTriples ts) =
      pushTriples (substitute name (some t) g)
        (ts.map (Triple.map (Term.resolve name (some t)))) := by
  have hnot : ∀ s ∈ slots (g.pushTriples ts), s.isTargetOf name = false := by
    refine forall_slots_of_append (slots_pushTriples g ts) h.not_target fun s hs => ?_
    obtain ⟨_, _, rfl⟩ := List.mem_map.mp hs
    rfl
  rw [substitute_of_not_target hnot, h.substitute_eq, mapSlots_pushTriples]
  rfl

end LeavesOpen

end Group

/-! ## Resolutions -/

namespace Resolutions

variable {values : Resolutions} (h : values.lookup name = none)
include h

/-- A new resolution is the last that is replayed. -/
theorem replay_insert {α : Type} (t : Term) (step : String → Option Term → α → α) (a : α) :
    replay (values.insert name t) step a = step name (some t) (values.replay step a) := by
  rw [replay, OrderedMap.entries_insert_of_lookup_eq_none h, List.foldl_append]
  rfl

theorem applyToTerm_insert (t : Term) :
    applyToTerm (values.insert name t) = fun u => (values.applyToTerm u).resolve name (some t) :=
  funext fun u => replay_insert h t Term.resolve u

theorem applyToTriple_insert (t : Term) (u : Triple) :
    applyToTriple (values.insert name t) u =
      (values.applyToTriple u).map (Term.resolve name (some t)) := by
  rw [applyToTriple, applyToTriple, applyToTerm_insert h, Triple.map_map]

theorem applyToExpression_insert (t : Term) (e : Expression) :
    applyToExpression (values.insert name t) e =
      (values.applyToExpression e).map (Term.resolve name (some t)) := by
  rw [applyToExpression, applyToExpression, applyToTerm_insert h, Expression.map_map]

theorem applyToGroup_insert (t : Term) (g : Group) :
    applyToGroup (values.insert name t) g = (values.applyToGroup g).substitute name (some t) :=
  replay_insert h t Group.substitute g

end Resolutions

/-! ## Lists -/

namespace Collection

/-- The nodes and properties of a list are left as they are. -/
theorem link_map {f : Term → Term} (hf : ∀ u, u.asVariable = none → f u = u)
    (pairs : List (BlankNode × Term)) :
    link (pairs.map (Prod.map id f)) = (link pairs).map (Triple.map f) := by
  induction pairs with
  | nil => rfl
  | cons pair pairs ih =>
    cases pairs <;> simp_all [link, Triple.map, Path.map, Term.asVariable]

theorem pairUp_map (a : Allocator) (f : Term → Term) (ts : List Term) (l : Labelling) :
    pairUp a (ts.map f) l = Steps.mapResult (List.map (Prod.map id f)) id (pairUp a ts l) := by
  rw [pairUp_eq, pairUp_eq, Steps.mapResult_mapResult, List.length_map]
  refine congrArg (Steps.mapResult · id _) (funext fun nodes => ?_)
  exact List.zip_map_right

/-- Replacing the members of a list replaces them in its triples. -/
theorem ofTerms_map {f : Term → Term} (hf : ∀ u, u.asVariable = none → f u = u) (a : Allocator)
    (ts : List Term) (l : Labelling) :
    ofTerms a (ts.map f) l =
      Steps.mapResult (fun c => ⟨c.head, c.triples.map (Triple.map f)⟩) id (ofTerms a ts l) := by
  refine Steps.bind_mapResult (g := id) (pairUp_map a f ts l) fun pairs m _ => ?_
  cases pairs with
  | nil => rfl
  | cons pair pairs =>
    exact congrArg (fun triples => EStateM.Result.ok (Collection.mk (.blank pair.1) triples) m)
      (link_map hf (pair :: pairs))

end Collection

/-! ## Builders -/

namespace PatternBuilder

open GraphPattern.Group BuildM Steps

/-- The builder with a variable resolved. -/
def resolve (name : String) (t : Term) (b : PatternBuilder) : PatternBuilder :=
  { b with group := b.group.substitute name (some t), values := b.values.insert name t }

/-- The session with a variable of its builder resolved. -/
def resolveIn (name : String) (t : Term) (s : Session PatternBuilder) : Session PatternBuilder :=
  { s with builder := s.builder.resolve name t }

/-- A builder in which the variable is neither resolved nor computed and carries no value. -/
structure LeavesOpen (name : String) (b : PatternBuilder) : Prop where
  unresolved : b.values.lookup name = none
  group : b.group.LeavesOpen name

theorem perform_setVar {var : Arg Term} {v : Variable} (hv : var.var = .ok v) (t : Term)
    (s : Session PatternBuilder) :
    perform (.setVar var (.value t)) s = .ok none (resolveIn v.name t s) := by
  simp only [perform, BuildM.void, setVar, hv]
  rfl

/-- An element that stays is put at the end before or after the variable is resolved. -/
theorem LeavesOpen.append_resolve {b : PatternBuilder} (hb : b.LeavesOpen name) {e : Element}
    (he : e.isBindOf name = false) :
    (b.resolve name t).append [(e.withoutBinds name).mapSlots (.resolve name (some t))] =
      (b.append [e]).resolve name t :=
  congrArg (fun g : Group => { b.resolve name t with group := g })
    (hb.group.substitute_concat he).symm

section

variable {s : Session PatternBuilder} (hs : s.builder.LeavesOpen name) (ht : t.IsConstant)
include hs ht

theorem LeavesOpen.labels_resolve :
    (s.builder.resolve name t).group.labels = s.builder.group.labels :=
  hs.group.labels_substitute ht

theorem withLabels_resolveIn {α γ : Type} {m : LabelM α} {m' : LabelM γ} {f : α → γ}
    (hm : ∀ l, m' l = mapResult f id (m l)) :
    withLabels m' (resolveIn name t s) = mapResult f (resolveIn name t) (withLabels m s) := by
  have hlabels : (resolveIn name t s).builder.group.labels = s.builder.group.labels :=
    hs.labels_resolve ht
  have hnext : (resolveIn name t s).nextLabel = s.nextLabel := rfl
  unfold withLabels
  rw [hlabels, hnext, hm]
  cases m ⟨s.nextLabel, s.builder.group.labels⟩ <;> rfl

theorem adopt_resolveIn (g : Group) (source : Prefixes) (order : LabelOrder) :
    adopt g source order (resolveIn name t s) =
      mapResult (substitute name (some t)) (resolveIn name t) (adopt g source order s) := by
  refine bind_mapResult (f := resolve name t) rfl fun b u hb => ?_
  obtain ⟨rfl, rfl⟩ := builder_eq_ok.mp hb
  refine bind_mapResult (withLabels_resolveIn hs ht fun l => (mapResult_id _).symm)
    fun labelled v _ => ?_
  refine bind_mapResult (f := id) rfl fun _ w _ => ?_
  exact congrArg (EStateM.Result.ok · (resolveIn name t w))
    (Resolutions.applyToGroup_insert hs.unresolved t labelled.2)

/-- An attached pattern is the same if what puts it into the group does the same to one in which the
variable is resolved. -/
theorem attach_resolveIn {pattern : PatternBuilder → Except Error (Group × Prefixes)}
    {order : LabelOrder} {put : Group → PatternBuilder → PatternBuilder}
    (hpattern : pattern (s.builder.resolve name t) = pattern s.builder)
    (hput : ∀ g (b : PatternBuilder), b.LeavesOpen name →
      put (g.substitute name (some t)) (b.resolve name t) = (put g b).resolve name t) :
    attach pattern order put (resolveIn name t s) =
      mapResult id (resolveIn name t) (attach pattern order put s) := by
  refine bind_mapResult (f := resolve name t) rfl fun b u hb => ?_
  obtain ⟨rfl, rfl⟩ := builder_eq_ok.mp hb
  rw [hpattern]
  refine bind_mapResult (ofExcept_mapResult _ _ _) fun source v hv => ?_
  obtain ⟨_, rfl⟩ := ofExcept_eq_ok.mp hv
  refine bind_mapResult (adopt_resolveIn hs ht _ _ _) fun g w hw => ?_
  obtain ⟨_, _, _, _, _, rfl⟩ := adopt_eq_ok hw
  refine congrArg (EStateM.Result.ok ()) ?_
  exact congrArg (Session.mk · _) (hput g _ ⟨hs.unresolved, hs.group⟩)

omit ht in
theorem addWhere_resolveIn (subject : Arg Term) (predicate : Arg Path) (object : Arg Term) :
    addWhere subject predicate object (resolveIn name t s) =
      mapResult id (resolveIn name t) (addWhere subject predicate object s) := by
  refine bind_mapResult (f := resolve name t) rfl fun b u hb => ?_
  obtain ⟨rfl, rfl⟩ := builder_eq_ok.mp hb
  refine bind_mapResult (ofExcept_mapResult _ _ _) fun triple v hv => ?_
  obtain ⟨_, rfl⟩ := ofExcept_eq_ok.mp hv
  refine congrArg (EStateM.Result.ok ()) (congrArg (Session.mk · _) ?_)
  refine congrArg (fun g : Group => { s.builder.resolve name t with group := g }) ?_
  show pushTriple _ (Resolutions.applyToTriple (s.builder.values.insert name t) triple) = _
  rw [Resolutions.applyToTriple_insert hs.unresolved]
  exact (hs.group.substitute_pushTriples [s.builder.values.applyToTriple triple]).symm

theorem addOptional_resolveIn (pattern : PatternArg) (order : LabelOrder) :
    addOptional pattern order (resolveIn name t s) =
      mapResult id (resolveIn name t) (addOptional pattern order s) := by
  rw [addOptional_eq_attach]
  exact attach_resolveIn hs ht rfl fun g b hb => hb.append_resolve (e := .optional g) rfl

theorem addMinus_resolveIn (pattern : PatternArg) (order : LabelOrder) :
    addMinus pattern order (resolveIn name t s) =
      mapResult id (resolveIn name t) (addMinus pattern order s) := by
  rw [addMinus_eq_attach]
  exact attach_resolveIn hs ht rfl fun g b hb => hb.append_resolve (e := .minus g) rfl

theorem addUnion_resolveIn (pattern : PatternArg) (order : LabelOrder) :
    addUnion pattern order (resolveIn name t s) =
      mapResult id (resolveIn name t) (addUnion pattern order s) := by
  rw [addUnion_eq_attach]
  refine attach_resolveIn hs ht rfl fun g b hb => ?_
  exact congrArg (fun h : Group => { b.resolve name t with group := h })
    (hb.group.substitute_pushAlternative g).symm

theorem addSubQuery_resolveIn (query : SubQuery) (order : LabelOrder) :
    addSubQuery query order (resolveIn name t s) =
      mapResult id (resolveIn name t) (addSubQuery query order s) := by
  refine bind_mapResult (adopt_resolveIn hs ht _ _ _) fun g u hg => ?_
  obtain ⟨_, copy, _, hcopy, rfl, rfl⟩ := adopt_eq_ok hg
  -- a copy of a nested query is one, whatever is resolved in it
  have hquery : ∃ d vs h p, s.builder.values.applyToGroup copy = [.subQuery d vs h p] := by
    obtain ⟨r, _, _, rfl⟩ := Allocator.renameApart_eq_ok hcopy
    exact Resolutions.applyToGroup_subQuery _ _ _ _ _
  obtain ⟨d, vs, h, p, hquery⟩ := hquery
  rw [hquery]
  have hb : PatternBuilder.LeavesOpen name
      { s.builder with prefixes := s.builder.prefixes.merge query.prefixes } :=
    ⟨hs.unresolved, hs.group⟩
  exact congrArg (EStateM.Result.ok ())
    (congrArg (Session.mk · _) (hb.append_resolve (e := .subQuery d vs h p) rfl))

omit ht in
theorem addFilter_resolveIn (condition : Arg Expression) :
    addFilter condition (resolveIn name t s) =
      mapResult id (resolveIn name t) (addFilter condition s) := by
  refine bind_mapResult (f := resolve name t) rfl fun b u hb => ?_
  obtain ⟨rfl, rfl⟩ := builder_eq_ok.mp hb
  refine bind_mapResult (ofExcept_mapResult _ _ _) fun e v hv => ?_
  obtain ⟨_, rfl⟩ := ofExcept_eq_ok.mp hv
  refine congrArg (EStateM.Result.ok ()) (congrArg (Session.mk · _) ?_)
  show append _ [.filter (Resolutions.applyToExpression (s.builder.values.insert name t) e)] = _
  rw [Resolutions.applyToExpression_insert hs.unresolved]
  exact hs.append_resolve (e := .filter (s.builder.values.applyToExpression e)) rfl

/-- Which value another variable has does not depend on the one that is resolved. -/
theorem valueOf?_resolve {other : String} (hne : other ≠ name) :
    (s.builder.resolve name t).valueOf? other = s.builder.valueOf? other := by
  show (OrderedMap.lookup (s.builder.values.insert name t) other).or
    (findBinding (substitute name (some t) s.builder.group) other) = _
  rw [OrderedMap.lookup_insert, if_neg hne, hs.group.findBinding_substitute ht hne]
  rfl

theorem addBind_resolveIn (expression : Arg Expression) {target : Arg Term}
    (htarget : ∀ v, target.var = .ok v → v.name ≠ name) :
    addBind expression target (resolveIn name t s) =
      mapResult id (resolveIn name t) (addBind expression target s) := by
  refine bind_mapResult (ofExcept_mapResult _ _ _) fun v u hv => ?_
  obtain ⟨hvar, rfl⟩ := ofExcept_eq_ok.mp hv
  have hne : v.name ≠ name := htarget v hvar
  refine bind_mapResult (f := resolve name t) rfl fun b u hb => ?_
  obtain ⟨rfl, rfl⟩ := builder_eq_ok.mp hb
  rw [id, valueOf?_resolve hs ht hne]
  cases s.builder.valueOf? v.name with
  | some value => rfl
  | none =>
    refine bind_mapResult (ofExcept_mapResult _ _ _) fun e w hw => ?_
    obtain ⟨_, rfl⟩ := ofExcept_eq_ok.mp hw
    refine congrArg (EStateM.Result.ok ()) (congrArg (Session.mk · _) ?_)
    show append _ [.bind (Resolutions.applyToExpression (s.builder.values.insert name t) e) v] = _
    rw [Resolutions.applyToExpression_insert hs.unresolved]
    exact hs.append_resolve (e := .bind (s.builder.values.applyToExpression e) v)
      (decide_eq_false hne)

theorem list_resolveIn (terms : List (Arg Term)) :
    list terms (resolveIn name t s) = mapResult id (resolveIn name t) (list terms s) := by
  refine bind_mapResult (f := resolve name t) rfl fun b u hb => ?_
  obtain ⟨rfl, rfl⟩ := builder_eq_ok.mp hb
  refine bind_mapResult (ofExcept_mapResult _ _ _) fun members v hv => ?_
  obtain ⟨_, rfl⟩ := ofExcept_eq_ok.mp hv
  have hmembers : members.map (Resolutions.applyToTerm (s.builder.values.insert name t)) =
      (members.map s.builder.values.applyToTerm).map (Term.resolve name (some t)) := by
    rw [Resolutions.applyToTerm_insert hs.unresolved, List.map_map]
    rfl
  have hlist := Collection.ofTerms_map
    (fun u hu => Term.resolve_of_asVariable_eq_none hu name (some t)) s.builder.allocator
    (members.map s.builder.values.applyToTerm)
  refine bind_mapResult (withLabels_resolveIn hs ht (by rw [← hmembers] at hlist; exact hlist))
    fun c w hw => ?_
  obtain ⟨l, _, rfl⟩ := withLabels_eq_ok hw
  refine congrArg (EStateM.Result.ok c.head) (congrArg (Session.mk · _) ?_)
  refine congrArg (fun g : Group => { s.builder.resolve name t with group := g }) ?_
  exact (hs.group.substitute_pushTriples c.triples).symm

end

end PatternBuilder

end

namespace PatternCall

/-- Whether the call adds something other than a `BIND` of the variable. -/
def AddsBeside (name : String) : PatternCall → Prop
  | .addBind _ target => ∀ v, target.var = .ok v → v.name ≠ name
  | .setVar _ _ => False
  | .unsetVar _ => False
  | _ => True

/-- What a call adds has nothing to do with the order in which labels are visited. -/
theorem AddsBeside.inOrder {name : String} {call : PatternCall} (h : call.AddsBeside name)
    (order : LabelOrder) : (call.inOrder order).AddsBeside name := by
  cases call <;> exact h

end PatternCall

namespace PatternBuilder

open BuildM Steps

theorem perform_resolveIn {name : String} {t : Term} {s : Session PatternBuilder}
    (hs : s.builder.LeavesOpen name) (ht : t.IsConstant) {call : PatternCall}
    (hcall : call.AddsBeside name) :
    perform call (resolveIn name t s) = mapResult id (resolveIn name t) (perform call s) := by
  cases call with
  | addPrefix label ns => rfl
  | addWhere subject predicate object =>
    exact void_mapResult (addWhere_resolveIn hs subject predicate object)
  | addOptional pattern order => exact void_mapResult (addOptional_resolveIn hs ht pattern order)
  | addUnion pattern order => exact void_mapResult (addUnion_resolveIn hs ht pattern order)
  | addMinus pattern order => exact void_mapResult (addMinus_resolveIn hs ht pattern order)
  | addSubQuery query order => exact void_mapResult (addSubQuery_resolveIn hs ht query order)
  | addBind expression target => exact void_mapResult (addBind_resolveIn hs ht expression hcall)
  | addFilter condition => exact void_mapResult (addFilter_resolveIn hs condition)
  | list terms => exact bind_mapResult (list_resolveIn hs ht terms) fun _ _ _ => rfl
  | setVar var value => cases hcall
  | unsetVar var => cases hcall

section

variable {name : String} {t : Term} {s : Session PatternBuilder}
  (hs : s.builder.LeavesOpen name) (ht : t.IsConstant) {call : PatternCall}
  (hcall : call.AddsBeside name)
include hs ht hcall

theorem result_perform_resolveIn :
    result (perform call) (resolveIn name t s) = result (perform call) s := by
  rw [result, result, perform_resolveIn hs ht hcall]
  cases perform call s <;> rfl

theorem session_perform_resolveIn :
    session (perform call) (resolveIn name t s) = resolveIn name t (session (perform call) s) := by
  rw [session, session, perform_resolveIn hs ht hcall]
  cases perform call s <;> rfl

end

/-- A variable that is not resolved, carries no value and is not computed can be resolved to an IRI
or a literal before or after a call that adds something, and it is resolved either way. Each time the
call visits the labels that it replaces in an order of its own. It gives the same or fails for the same
reason, and the prefixes, the resolutions and the number of the next label end up the same. The group
does too if those labels are visited one after the other alike. If they are not, it is the same but for
the copy that is attached: the new labels in it are the same, and either time the labels replaced get
them in the order in which they are visited then. -/
theorem perform_setVar_comm (s : Session PatternBuilder) (name : String) (t : Term)
    (ht : t.IsConstant) (hvalue : s.builder.values.lookup name = none)
    (hslots : ∀ slot ∈ Group.slots s.builder.group,
      (∀ v, slot.var? = some v → v.name = name → v.binding = none) ∧ slot.isTargetOf name = false)
    (call : PatternCall) (hcall : call.AddsBeside name) (var : Arg Term) (v : Variable)
    (hvar : var.var = .ok v) (hname : v.name = name) (early late : LabelOrder) :
    let resolution := perform (.setVar var (.value t))
    let addition := fun order => perform (call.inOrder order)
    let first := session (addition early) (session resolution s)
    let last := session resolution (session (addition late) s)
    result resolution s = .ok none ∧ result resolution (session (addition late) s) = .ok none ∧
      result (addition early) (session resolution s) = result (addition late) s ∧
      { first.builder with group := last.builder.group } = last.builder ∧
      first.nextLabel = last.nextLabel ∧
      ((∀ g, call.attached? s.builder.prefixes = some g →
        early.arrange (g.collisions s.builder.group.labels) =
          late.arrange (g.collisions s.builder.group.labels)) → first = last) ∧
      (first = last ∨
        ∃ g new f h, call.attached? s.builder.prefixes = some g ∧ new.Nodup ∧
          early.Gives (g.collisions s.builder.group.labels) new f ∧
          late.Gives (g.collisions s.builder.group.labels) new h ∧
          first.builder.group =
            (call.place (s.builder.values.applyToGroup (g.mapLabels f)) s.builder.group).substitute
              name (some t) ∧
          last.builder.group =
            (call.place (s.builder.values.applyToGroup (g.mapLabels h)) s.builder.group).substitute
              name (some t)) := by
  subst hname
  have hopen : s.builder.LeavesOpen v.name :=
    ⟨hvalue, fun slot h => (hslots slot h).1, fun slot h => (hslots slot h).2⟩
  have hsession : ∀ s, session (perform (.setVar var (.value t))) s = resolveIn v.name t s := by
    intro s
    rw [session, perform_setVar hvar]
  have hresult : ∀ s, result (perform (.setVar var (.value t))) s = .ok none := by
    intro s
    rw [result, perform_setVar hvar]
  have hbeside : (call.inOrder early).AddsBeside v.name := hcall.inOrder early
  obtain ⟨hsame, hends⟩ := perform_in_two_orders call s early late
  refine ⟨hresult s, hresult _, ?_, ?_⟩
  · rw [hsession, result_perform_resolveIn hopen ht hbeside, hsame]
  · -- in one order the variable may as well be resolved afterwards, so only the orders are compared
    rw [hsession, hsession, session_perform_resolveIn hopen ht hbeside]
    rcases hends with heq | ⟨g, new, source, next, f, h, hg, hnodup, hf, hh, hearly, hlate⟩
    · rw [heq]
      exact ⟨rfl, rfl, fun _ => rfl, .inl rfl⟩
    · rw [hearly, hlate]
      refine ⟨rfl, rfl, fun horder => ?_, .inr ⟨g, new, f, h, hg, hnodup, hf, hh, rfl, rfl⟩⟩
      rw [hf.eq_of_arrange_eq hh (horder g hg)]

/-- A builder with the filter `?x`. -/
def filtering : PatternBuilder := { new {} with group := [.filter (.term (.free "x"))] }

/-- The addition of a pattern that computes `?x` and has it with the value `<d>`. -/
def attachComputing : PatternCall :=
  .addOptional (.group [.bind (.term (.free "y")) ⟨"x", none⟩,
    .filter (.term (.bound "x" (.iri ⟨"d"⟩)))] .empty)

/-- The pattern that is added loses its `BIND` and its value, early or late. -/
theorem perform_setVar_comm_computing :
    session (perform attachComputing)
        (session (perform (.setVar (.value (.free "x")) (.value (.iri ⟨"c"⟩)))) ⟨filtering, 0⟩) =
      session (perform (.setVar (.value (.free "x")) (.value (.iri ⟨"c"⟩))))
        (session (perform attachComputing) ⟨filtering, 0⟩) ∧
    (session (perform attachComputing)
        (session (perform (.setVar (.value (.free "x")) (.value (.iri ⟨"c"⟩))))
          ⟨filtering, 0⟩)).builder.group =
      [.filter (.term (.bound "x" (.iri ⟨"c"⟩))),
        .optional [.filter (.term (.bound "x" (.iri ⟨"c"⟩)))]] := by
  refine ⟨?_, by rfl⟩
  exact (perform_setVar_comm ⟨filtering, 0⟩ "x" (.iri ⟨"c"⟩) trivial rfl (by decide) attachComputing
    trivial (.value (.free "x")) ⟨"x", none⟩ rfl rfl .reading .reading).2.2.2.2.2.1 fun _ _ => rfl

/-- The triple `s p o`, as the only one of a group. -/
def linking (s p o : Term) : Group := [.block [⟨s, .predicate p, o⟩]]

/-- A builder with the triple `_:u <p> _:v`. -/
def linked : Session PatternBuilder :=
  ⟨{ new {} with group := linking (.blank ⟨"u"⟩) (.iri ⟨"p"⟩) (.blank ⟨"v"⟩) }, 0⟩

/-- The addition of the pattern `_:u ?x _:v`. -/
def attachLinked : PatternCall :=
  .addOptional (.group (linking (.blank ⟨"u"⟩) (.free "x") (.blank ⟨"v"⟩)) .empty)

/-- A variable that is open is resolved before a call that visits two labels as they are met, and after
the same call if it visits them the other way round. The groups are not the same. -/
theorem group_ne_in_two_orders :
    let resolution := perform (.setVar (.value (.free "x")) (.value (.iri ⟨"c"⟩)))
    let first := session (perform (attachLinked.inOrder .reading)) (session resolution linked)
    let last := session resolution (session (perform (attachLinked.inOrder .reversed)) linked)
    linked = session (perform (.addWhere (.value (.blank ⟨"u"⟩)) (.value (.predicate (.iri ⟨"p"⟩)))
        (.value (.blank ⟨"v"⟩)))) ⟨new {}, 0⟩ ∧
      (Term.iri ⟨"c"⟩).IsConstant ∧ linked.builder.values.lookup "x" = none ∧
      (∀ slot ∈ Group.slots linked.builder.group,
        (∀ v, slot.var? = some v → v.name = "x" → v.binding = none) ∧
          slot.isTargetOf "x" = false) ∧
      attachLinked.AddsBeside "x" ∧
      first.builder.group = linked.builder.group ++
        [.optional (linking (.blank ⟨"b0"⟩) (.bound "x" (.iri ⟨"c"⟩)) (.blank ⟨"b1"⟩))] ∧
      last.builder.group = linked.builder.group ++
        [.optional (linking (.blank ⟨"b1"⟩) (.bound "x" (.iri ⟨"c"⟩)) (.blank ⟨"b0"⟩))] ∧
      first.builder.group ≠ last.builder.group := by
  intro resolution first last
  have hfirst : first.builder.group = linked.builder.group ++
      [.optional (linking (.blank ⟨"b0"⟩) (.bound "x" (.iri ⟨"c"⟩)) (.blank ⟨"b1"⟩))] := by
    decide
  have hlast : last.builder.group = linked.builder.group ++
      [.optional (linking (.blank ⟨"b1"⟩) (.bound "x" (.iri ⟨"c"⟩)) (.blank ⟨"b0"⟩))] := by
    decide
  refine ⟨by rfl, trivial, by rfl, by decide, trivial, hfirst, hlast, ?_⟩
  rw [hfirst, hlast]
  decide

end PatternBuilder

end GraphPattern
