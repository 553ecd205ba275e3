import GraphPattern.Proofs.Builder.Session

/-!
# What calls do to a builder

`PatternBuilder.Outcome` has one case for each call and says all that the call can make of a builder
when it succeeds (`PatternBuilder.outcome_of_perform`); a call that fails makes nothing of it
(`PatternBuilder.builder_of_perform_error`). So what every outcome preserves holds after any
sequence of calls, failing ones included (`PatternBuilder.run_induction`).
-/

namespace GraphPattern.PatternBuilder

open BuildM Steps

/-! ## Calls that succeed -/

/-- Whether `h` is what becomes of an attached group `g`: a copy whose blank nodes are kept apart
from those of the builder, in whatever order they are renamed, with the resolutions applied. -/
def Adopts (b : PatternBuilder) (g h : Group) : Prop :=
  ∃ order next count copy t,
    b.allocator.makeDisjoint g order ⟨next, b.group.labels⟩ = .ok (count, copy) t ∧
    h = b.values.applyToGroup copy

/-- What a successful call makes of a builder. -/
inductive Outcome (b : PatternBuilder) : PatternCall → PatternBuilder → Prop where
  | addPrefix (label ns : String) :
      Outcome b (.addPrefix label ns) { b with prefixes := (b.prefixes.declare label ns).2 }
  | addWhere {s p o t} (ht : Triple.ofArgs b.prefixes s p o = .ok t) :
      Outcome b (.addWhere s p o)
        { b with group := b.group.pushTriple (b.values.applyToTriple t) }
  | addOptional {pattern order g source h} (hp : pattern.body b.prefixes = .ok (g, source))
      (hg : b.Adopts g h) :
      Outcome b (.addOptional pattern order)
        { b with group := b.group ++ [.optional h], prefixes := b.prefixes.merge source }
  | addUnion {pattern order g source h} (hp : pattern.alternative b.prefixes = .ok (g, source))
      (hg : b.Adopts g h) :
      Outcome b (.addUnion pattern order)
        { b with group := b.group.pushAlternative h, prefixes := b.prefixes.merge source }
  | addMinus {pattern order g source h} (hp : pattern.body b.prefixes = .ok (g, source))
      (hg : b.Adopts g h) :
      Outcome b (.addMinus pattern order)
        { b with group := b.group ++ [.minus h], prefixes := b.prefixes.merge source }
  | addSubQuery {query order h} (hg : b.Adopts [query.toElement] h) :
      Outcome b (.addSubQuery query order)
        { b with group := b.group ++ h, prefixes := b.prefixes.merge query.prefixes }
  | addBind {expression target v e} (hv : target.var = .ok v) (hfree : b.valueOf? v.name = none)
      (he : expression.expression b.prefixes = .ok e) :
      Outcome b (.addBind expression target)
        { b with group := b.group ++ [.bind (b.values.applyToExpression e) v] }
  | addFilter {condition e} (he : condition.expression b.prefixes = .ok e) :
      Outcome b (.addFilter condition)
        { b with group := b.group ++ [.filter (b.values.applyToExpression e)] }
  | list {terms members next c t} (hm : terms.mapM (Arg.term b.prefixes) = .ok members)
      (hc : Collection.ofTerms b.allocator (members.map b.values.applyToTerm)
        ⟨next, b.group.labels⟩ = .ok c t) :
      Outcome b (.list terms) { b with group := b.group.pushTriples c.triples }
  | setVar {var value v t} (hv : var.var = .ok v) (ht : value.term b.prefixes = .ok t) :
      Outcome b (.setVar var value)
        { b with group := b.group.substitute v.name (some t), values := b.values.insert v.name t }
  | unsetVar {var v} (hv : var.var = .ok v) :
      Outcome b (.unsetVar var)
        { b with group := b.group.substitute v.name none, values := b.values.erase v.name }

variable {s t : Session PatternBuilder}

theorem withLabels_eq_ok {α : Type} {m : LabelM α} {a : α} (h : withLabels m s = .ok a t) :
    ∃ l, m ⟨s.nextLabel, s.builder.group.labels⟩ = .ok a l ∧ t = { s with nextLabel := l.next } := by
  unfold withLabels at h
  split at h
  · rename_i l hm
    cases h
    exact ⟨l, hm, rfl⟩
  · cases h

theorem adopt_eq_ok {g h : Group} {source : Prefixes} {order : LabelOrder}
    (hok : adopt g source order s = .ok h t) :
    ∃ count copy l,
      s.builder.allocator.makeDisjoint g order ⟨s.nextLabel, s.builder.group.labels⟩ =
        .ok (count, copy) l ∧
      h = s.builder.values.applyToGroup copy ∧
      t = ⟨{ s.builder with prefixes := s.builder.prefixes.merge source }, l.next⟩ := by
  simp only [adopt, bind_eq_ok, builder_eq_ok, update_eq_ok, pure_eq_ok] at hok
  obtain ⟨_, _, ⟨rfl, rfl⟩, ⟨count, copy⟩, _, hl, _, _, rfl, rfl, rfl⟩ := hok
  obtain ⟨l, hm, rfl⟩ := withLabels_eq_ok hl
  exact ⟨count, copy, l, hm, rfl, rfl⟩

/-- The calls that attach a pattern: they take it from their argument, adopt it and put it into the
group. -/
def attach (pattern : PatternBuilder → Except Error (Group × Prefixes)) (order : LabelOrder)
    (put : Group → PatternBuilder → PatternBuilder) : BuildM PatternBuilder Unit := do
  let b ← BuildM.builder
  let (g, source) ← BuildM.ofExcept (pattern b)
  let g ← adopt g source order
  BuildM.update (put g)

theorem addOptional_eq_attach (pattern : PatternArg) (order : LabelOrder) :
    addOptional pattern order =
      attach (fun b => pattern.body b.prefixes) order fun g b => b.append [.optional g] := rfl

theorem addUnion_eq_attach (pattern : PatternArg) (order : LabelOrder) :
    addUnion pattern order =
      attach (fun b => pattern.alternative b.prefixes) order fun g b =>
        { b with group := b.group.pushAlternative g } := rfl

theorem addMinus_eq_attach (pattern : PatternArg) (order : LabelOrder) :
    addMinus pattern order =
      attach (fun b => pattern.body b.prefixes) order fun g b => b.append [.minus g] := rfl

theorem attach_eq_ok {pattern : PatternBuilder → Except Error (Group × Prefixes)}
    {order : LabelOrder} {put : Group → PatternBuilder → PatternBuilder} {u : Unit}
    (h : attach pattern order put s = .ok u t) :
    ∃ g source count copy l, pattern s.builder = .ok (g, source) ∧
      s.builder.allocator.makeDisjoint g order ⟨s.nextLabel, s.builder.group.labels⟩ =
        .ok (count, copy) l ∧
      t = ⟨put (s.builder.values.applyToGroup copy)
        { s.builder with prefixes := s.builder.prefixes.merge source }, l.next⟩ := by
  simp only [attach, bind_eq_ok, builder_eq_ok, ofExcept_eq_ok, update_eq_ok] at h
  obtain ⟨_, _, ⟨rfl, rfl⟩, ⟨g, source⟩, _, ⟨hp, rfl⟩, _, _, ha, rfl⟩ := h
  obtain ⟨count, copy, l, hm, rfl, rfl⟩ := adopt_eq_ok ha
  exact ⟨g, source, count, copy, l, hp, hm, rfl⟩

theorem outcome_of_perform {call : PatternCall} {r : Option Term}
    (h : perform call s = .ok r t) : Outcome s.builder call t.builder := by
  cases call with
  | addPrefix label ns =>
    have h := ok_of_void h
    rw [addPrefix, update_eq_ok] at h
    subst h
    exact .addPrefix label ns
  | addWhere subject predicate object =>
    have h := ok_of_void h
    simp only [addWhere, bind_eq_ok, builder_eq_ok, ofExcept_eq_ok, update_eq_ok] at h
    obtain ⟨_, _, ⟨rfl, rfl⟩, _, _, ⟨ht, rfl⟩, rfl⟩ := h
    exact .addWhere ht
  | addOptional pattern order =>
    obtain ⟨g, source, count, copy, l, hp, hm, rfl⟩ :=
      attach_eq_ok (addOptional_eq_attach _ _ ▸ ok_of_void h)
    exact .addOptional hp ⟨_, _, count, copy, l, hm, rfl⟩
  | addUnion pattern order =>
    obtain ⟨g, source, count, copy, l, hp, hm, rfl⟩ :=
      attach_eq_ok (addUnion_eq_attach _ _ ▸ ok_of_void h)
    exact .addUnion hp ⟨_, _, count, copy, l, hm, rfl⟩
  | addMinus pattern order =>
    obtain ⟨g, source, count, copy, l, hp, hm, rfl⟩ :=
      attach_eq_ok (addMinus_eq_attach _ _ ▸ ok_of_void h)
    exact .addMinus hp ⟨_, _, count, copy, l, hm, rfl⟩
  | addSubQuery query order =>
    have h := ok_of_void h
    simp only [addSubQuery, bind_eq_ok, update_eq_ok] at h
    obtain ⟨_, _, ha, rfl⟩ := h
    obtain ⟨count, copy, l, hm, rfl, rfl⟩ := adopt_eq_ok ha
    exact .addSubQuery ⟨_, _, count, copy, l, hm, rfl⟩
  | addBind expression target =>
    have h := ok_of_void h
    simp only [addBind, bind_eq_ok, builder_eq_ok, ofExcept_eq_ok] at h
    obtain ⟨v, _, ⟨hv, rfl⟩, _, _, ⟨rfl, rfl⟩, h⟩ := h
    -- the call goes on only if the target has no value
    cases hfree : s.builder.valueOf? v.name with
    | some value => simp [hfree] at h
    | none =>
      simp only [hfree, bind_eq_ok, ofExcept_eq_ok, update_eq_ok] at h
      obtain ⟨_, _, ⟨he, rfl⟩, rfl⟩ := h
      exact .addBind hv hfree he
  | addFilter condition =>
    have h := ok_of_void h
    simp only [addFilter, bind_eq_ok, builder_eq_ok, ofExcept_eq_ok, update_eq_ok] at h
    obtain ⟨_, _, ⟨rfl, rfl⟩, _, _, ⟨he, rfl⟩, rfl⟩ := h
    exact .addFilter he
  | list terms =>
    rw [perform, map_eq_ok] at h
    obtain ⟨_, h, _⟩ := h
    simp only [list, bind_eq_ok, builder_eq_ok, ofExcept_eq_ok, update_eq_ok, pure_eq_ok] at h
    obtain ⟨_, _, ⟨rfl, rfl⟩, _, _, ⟨hm, rfl⟩, c, r, hl, _, _, rfl, _, rfl⟩ := h
    obtain ⟨l, hc, rfl⟩ := withLabels_eq_ok hl
    exact .list hm hc
  | setVar var value =>
    have h := ok_of_void h
    simp only [setVar, bind_eq_ok, builder_eq_ok, ofExcept_eq_ok, update_eq_ok] at h
    obtain ⟨_, _, ⟨rfl, rfl⟩, _, _, ⟨hv, rfl⟩, _, _, ⟨ht, rfl⟩, rfl⟩ := h
    exact .setVar hv ht
  | unsetVar var =>
    have h := ok_of_void h
    simp only [unsetVar, bind_eq_ok, ofExcept_eq_ok, update_eq_ok] at h
    obtain ⟨_, _, ⟨hv, rfl⟩, rfl⟩ := h
    exact .unsetVar hv

/-! ## Calls that fail -/

theorem withLabels_eq_error {α : Type} {m : LabelM α} {e : Error}
    (h : withLabels m s = .error e t) :
    ∃ cause l, m ⟨s.nextLabel, s.builder.group.labels⟩ = .error cause l ∧
      t = { s with nextLabel := l.next } := by
  unfold withLabels at h
  split at h
  · cases h
  · rename_i cause l hm
    cases h
    exact ⟨cause, l, hm, rfl⟩

theorem adopt_eq_error {g : Group} {source : Prefixes} {order : LabelOrder} {e : Error}
    (h : adopt g source order s = .error e t) : t.builder = s.builder := by
  simp only [adopt, bind_eq_error, builder_eq_ok, builder_ne_error, update_ne_error, pure_ne_error,
    and_false, exists_false, or_false, false_or] at h
  obtain ⟨_, _, ⟨rfl, rfl⟩, hl⟩ := h
  obtain ⟨_, _, _, rfl⟩ := withLabels_eq_error hl
  rfl

theorem attach_eq_error {pattern : PatternBuilder → Except Error (Group × Prefixes)}
    {order : LabelOrder} {put : Group → PatternBuilder → PatternBuilder} {e : Error}
    (h : attach pattern order put s = .error e t) : t.builder = s.builder := by
  simp only [attach, bind_eq_error, builder_eq_ok, builder_ne_error, ofExcept_eq_ok,
    ofExcept_eq_error, update_ne_error, and_false, exists_false, or_false, false_or] at h
  obtain ⟨_, _, ⟨rfl, rfl⟩, ⟨_, rfl⟩ | ⟨_, _, ⟨_, rfl⟩, ha⟩⟩ := h
  · rfl
  · exact adopt_eq_error ha

theorem setVar_eq_error {var value : Arg Term} {e : Error} (h : setVar var value s = .error e t) :
    t.builder = s.builder := by
  simp only [setVar, bind_eq_error, builder_eq_ok, builder_ne_error, ofExcept_eq_ok,
    ofExcept_eq_error, update_ne_error, and_false, exists_false, or_false, false_or] at h
  obtain ⟨_, _, ⟨rfl, rfl⟩, ⟨_, rfl⟩ | ⟨_, _, ⟨_, rfl⟩, _, rfl⟩⟩ := h
  · rfl
  · rfl

theorem unsetVar_eq_error {var : Arg Term} {e : Error} (h : unsetVar var s = .error e t) :
    t.builder = s.builder := by
  simp only [unsetVar, bind_eq_error, ofExcept_eq_error, update_ne_error, and_false, exists_false,
    or_false] at h
  rw [h.2]

/-- A call that fails leaves the builder as it was. -/
theorem builder_of_perform_error {call : PatternCall} {e : Error}
    (h : perform call s = .error e t) : t.builder = s.builder := by
  cases call with
  | addPrefix label ns => exact absurd (void_eq_error.mp h) update_ne_error
  | addWhere subject predicate object =>
    have h := void_eq_error.mp h
    simp only [addWhere, bind_eq_error, builder_eq_ok, builder_ne_error, ofExcept_eq_error,
      update_ne_error, and_false, exists_false, or_false, false_or] at h
    obtain ⟨_, _, ⟨rfl, rfl⟩, _, rfl⟩ := h
    rfl
  | addOptional pattern order =>
    exact attach_eq_error (addOptional_eq_attach _ _ ▸ void_eq_error.mp h)
  | addUnion pattern order =>
    exact attach_eq_error (addUnion_eq_attach _ _ ▸ void_eq_error.mp h)
  | addMinus pattern order =>
    exact attach_eq_error (addMinus_eq_attach _ _ ▸ void_eq_error.mp h)
  | addSubQuery query order =>
    have h := void_eq_error.mp h
    simp only [addSubQuery, bind_eq_error, update_ne_error, and_false, exists_false, or_false] at h
    exact adopt_eq_error h
  | addBind expression target =>
    have h := void_eq_error.mp h
    simp only [addBind, bind_eq_error, builder_eq_ok, builder_ne_error, ofExcept_eq_ok,
      ofExcept_eq_error, false_or] at h
    obtain ⟨_, rfl⟩ | ⟨v, _, ⟨_, rfl⟩, _, _, ⟨rfl, rfl⟩, h⟩ := h
    · rfl
    · cases hfree : s.builder.valueOf? v.name with
      | some value =>
        simp only [hfree, ofExcept_eq_error] at h
        rw [h.2]
      | none =>
        simp only [hfree, bind_eq_error, ofExcept_eq_error, update_ne_error, and_false,
          exists_false, or_false] at h
        rw [h.2]
  | addFilter condition =>
    have h := void_eq_error.mp h
    simp only [addFilter, bind_eq_error, builder_eq_ok, builder_ne_error, ofExcept_eq_error,
      update_ne_error, and_false, exists_false, or_false, false_or] at h
    obtain ⟨_, _, ⟨rfl, rfl⟩, _, rfl⟩ := h
    rfl
  | list terms =>
    -- labels may have been taken by then, which are no part of the builder
    rw [perform, map_eq_error] at h
    simp only [list, bind_eq_error, builder_eq_ok, builder_ne_error, ofExcept_eq_ok,
      ofExcept_eq_error, update_ne_error, pure_ne_error, and_false, exists_false, or_false,
      false_or] at h
    obtain ⟨_, _, ⟨rfl, rfl⟩, ⟨_, rfl⟩ | ⟨_, _, ⟨_, rfl⟩, hl⟩⟩ := h
    · rfl
    · obtain ⟨_, _, _, rfl⟩ := withLabels_eq_error hl
      rfl
  | setVar var value => exact setVar_eq_error (void_eq_error.mp h)
  | unsetVar var => exact unsetVar_eq_error (void_eq_error.mp h)

/-! ## Runs -/

/-- The builder after a call, whether the call succeeds or fails. The number of the next label
stands at `next`, which depends on what other builders have done. -/
def after (b : PatternBuilder) (call : PatternCall) (next : Nat) : PatternBuilder :=
  match perform call ⟨b, next⟩ with
  | .ok _ s => s.builder
  | .error _ s => s.builder

/-- The builder after some calls, each with the number of the next label at that time. -/
def run (b : PatternBuilder) (calls : List (PatternCall × Nat)) : PatternBuilder :=
  calls.foldl (fun b c => b.after c.1 c.2) b

theorem after_eq_or_outcome (b : PatternBuilder) (call : PatternCall) (next : Nat) :
    b.after call next = b ∨ Outcome b call (b.after call next) := by
  unfold after
  split
  · rename_i h
    exact .inr (outcome_of_perform h)
  · rename_i h
    exact .inl (builder_of_perform_error h)

/-- What holds at first and is preserved by every outcome of the calls holds after them. -/
theorem run_induction {P : PatternBuilder → Prop} {b : PatternBuilder}
    {calls : List (PatternCall × Nat)} (start : P b)
    (step : ∀ c ∈ calls, ∀ b b', P b → Outcome b c.1 b' → P b') : P (b.run calls) := by
  induction calls generalizing b with
  | nil => exact start
  | cons c calls ih =>
    have hc : P (b.after c.1 c.2) := by
      rcases after_eq_or_outcome b c.1 c.2 with h | h
      · rw [h]
        exact start
      · exact step c (by simp) b _ start h
    exact ih hc fun d hd => step d (by simp [hd])

end GraphPattern.PatternBuilder
