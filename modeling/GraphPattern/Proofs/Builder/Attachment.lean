import GraphPattern.Proofs.Builder.Outcome
import GraphPattern.Proofs.Pattern.Disjoint
import GraphPattern.Proofs.SharedCounter

/-!
# Calls that attach a pattern

The four calls that attach a pattern differ in what they attach and in where they put the copy of it
(`PatternBuilder.exists_attach`). Whether such a call succeeds, which new labels it takes and all it does
besides do not depend on the order in which it visits the labels to be replaced. The order decides only
which of the new labels stands for which of the old ones in the copy (`PatternBuilder.perform_inOrder`).
-/

namespace GraphPattern

namespace PatternCall

/-- The group that a call attaches a copy of, if it attaches one. -/
def attached? (prefixes : Prefixes) : PatternCall → Option Group
  | .addOptional pattern _ => (pattern.body prefixes).toOption.map Prod.fst
  | .addUnion pattern _ => (pattern.alternative prefixes).toOption.map Prod.fst
  | .addMinus pattern _ => (pattern.body prefixes).toOption.map Prod.fst
  | .addSubQuery query _ => some [query.toElement]
  | _ => none

/-- The group with a copy where the call attaches it. -/
def place (copy g : Group) : PatternCall → Group
  | .addOptional _ _ => g ++ [.optional copy]
  | .addUnion _ _ => g.pushAlternative copy
  | .addMinus _ _ => g ++ [.minus copy]
  | .addSubQuery _ _ => g ++ copy
  | _ => g

/-- The call with the labels to be replaced visited in the given order. -/
def inOrder (order : LabelOrder) : PatternCall → PatternCall
  | .addOptional pattern _ => .addOptional pattern order
  | .addUnion pattern _ => .addUnion pattern order
  | .addMinus pattern _ => .addMinus pattern order
  | .addSubQuery query _ => .addSubQuery query order
  | call => call

end PatternCall

namespace PatternBuilder

open BuildM Steps

variable {s t : Session PatternBuilder} {call : PatternCall}

/-! ## What is attached, and where -/

/-- A call attaches nothing, or it takes a group from its argument, adopts it and places the copy. It may
be given another order then. -/
theorem exists_attach (call : PatternCall) :
    (∀ prefixes, call.attached? prefixes = none) ∧ (∀ order, call.inOrder order = call) ∨
      ∃ pattern : PatternBuilder → Except Error (Group × Prefixes),
        (∀ b, (pattern b).toOption.map Prod.fst = call.attached? b.prefixes) ∧
        (∃ order, call.inOrder order = call) ∧
        ∀ order, perform (call.inOrder order) =
          (attach pattern order fun copy b => { b with group := call.place copy b.group }).void := by
  cases call with
  | addOptional pattern order =>
    exact .inr ⟨fun b => pattern.body b.prefixes, fun _ => rfl, ⟨order, rfl⟩, fun _ => rfl⟩
  | addUnion pattern order =>
    exact .inr ⟨fun b => pattern.alternative b.prefixes, fun _ => rfl, ⟨order, rfl⟩, fun _ => rfl⟩
  | addMinus pattern order =>
    exact .inr ⟨fun b => pattern.body b.prefixes, fun _ => rfl, ⟨order, rfl⟩, fun _ => rfl⟩
  | addSubQuery query order =>
    exact .inr ⟨fun _ => .ok ([query.toElement], query.prefixes), fun _ => rfl, ⟨order, rfl⟩,
      fun _ => rfl⟩
  | _ => exact .inl ⟨fun _ => rfl, fun _ => rfl⟩

theorem place_of_perform {g : Group} {r : Option Term}
    (hg : call.attached? s.builder.prefixes = some g) (h : perform call s = .ok r t) :
    ∃ order count copy l,
      s.builder.allocator.makeDisjoint g order ⟨s.nextLabel, s.builder.group.labels⟩ =
        .ok (count, copy) l ∧
      t.builder.group = call.place (s.builder.values.applyToGroup copy) s.builder.group ∧
      t.nextLabel = l.next := by
  rcases exists_attach call with ⟨hnone, _⟩ | ⟨pattern, hpattern, ⟨order, horder⟩, hperform⟩
  · rw [hnone] at hg
    cases hg
  · rw [← horder, hperform] at h
    obtain ⟨given, source, count, copy, l, hgiven, hcopy, rfl⟩ := attach_eq_ok (ok_of_void h)
    rw [← hpattern, hgiven] at hg
    cases hg
    exact ⟨order, count, copy, l, hcopy, rfl, rfl⟩

/-! ## What the order decides -/

section

variable {pattern : PatternBuilder → Except Error (Group × Prefixes)} {order : LabelOrder}
  {put : Group → PatternBuilder → PatternBuilder}

theorem attach_of_pattern_eq_error {e : Error} (h : pattern s.builder = .error e) :
    attach pattern order put s = .error e s := by
  rw [attach, bind_of_eq_ok (builder_eq_ok.mpr ⟨rfl, rfl⟩)]
  exact bind_of_eq_error (ofExcept_eq_error.mpr ⟨h, rfl⟩)

variable {g : Group} {source : Prefixes} (hp : pattern s.builder = .ok (g, source))
include hp

theorem attach_of_pattern_eq_ok :
    attach pattern order put s =
      (adopt g source order >>= fun copy => BuildM.update (put copy)) s := by
  rw [attach, bind_of_eq_ok (builder_eq_ok.mpr ⟨rfl, rfl⟩),
    bind_of_eq_ok (ofExcept_eq_ok.mpr ⟨hp, rfl⟩)]

theorem attach_of_makeDisjoint_eq_ok {count : Nat} {copy : Group} {l : Labelling}
    (h : s.builder.allocator.makeDisjoint g order ⟨s.nextLabel, s.builder.group.labels⟩ =
      .ok (count, copy) l) :
    attach pattern order put s =
      .ok () ⟨put (s.builder.values.applyToGroup copy)
        { s.builder with prefixes := s.builder.prefixes.merge source }, l.next⟩ := by
  have hlabels : withLabels (s.builder.allocator.makeDisjoint g order) s =
      .ok (count, copy) { s with nextLabel := l.next } := by
    rw [withLabels, h]
  have hadopt : adopt g source order s = .ok (s.builder.values.applyToGroup copy)
      ⟨{ s.builder with prefixes := s.builder.prefixes.merge source }, l.next⟩ := by
    rw [adopt, bind_of_eq_ok (builder_eq_ok.mpr ⟨rfl, rfl⟩), bind_of_eq_ok hlabels]
    rfl
  rw [attach_of_pattern_eq_ok hp, bind_of_eq_ok hadopt]
  rfl

theorem attach_of_makeDisjoint_eq_error {cause : StructuralError} {l : Labelling}
    (h : s.builder.allocator.makeDisjoint g order ⟨s.nextLabel, s.builder.group.labels⟩ =
      .error cause l) :
    attach pattern order put s = .error (.structural cause) { s with nextLabel := l.next } := by
  have hlabels : withLabels (s.builder.allocator.makeDisjoint g order) s =
      .error (.structural cause) { s with nextLabel := l.next } := by
    rw [withLabels, h]
  rw [attach_of_pattern_eq_ok hp]
  refine bind_of_eq_error ?_
  rw [adopt, bind_of_eq_ok (builder_eq_ok.mpr ⟨rfl, rfl⟩)]
  exact bind_of_eq_error hlabels

end

/-- A call that attaches nothing does the same in every order. -/
theorem perform_inOrder_of_attached?_eq_none (h : call.attached? s.builder.prefixes = none)
    (order : LabelOrder) : perform (call.inOrder order) s = perform call s := by
  rcases exists_attach call with ⟨_, hself⟩ | ⟨pattern, hpattern, ⟨own, hown⟩, hperform⟩
  · rw [hself]
  · -- the argument is no pattern, and the call fails before it comes to the labels
    obtain ⟨e, he⟩ : ∃ e, pattern s.builder = .error e := by
      rw [← hpattern] at h
      cases hgiven : pattern s.builder with
      | ok given => simp [hgiven, Except.toOption] at h
      | error e => exact ⟨e, rfl⟩
    have hfails : ∀ order, perform (call.inOrder order) s = .error e s := by
      intro order
      rw [hperform]
      exact void_eq_error.mpr (attach_of_pattern_eq_error he)
    rw [hfails, ← hown, hfails]

/-- A call that attaches a group fails alike in every order, or it takes the same new labels in every
order, gives them to the colliding labels in that order, and does all else alike. -/
theorem perform_inOrder {g : Group} (hg : call.attached? s.builder.prefixes = some g) :
    (∃ e u, ∀ order, perform (call.inOrder order) s = .error e u) ∨
      ∃ new source next, new.Nodup ∧ ∀ order, ∃ f,
        order.Gives (g.collisions s.builder.group.labels) new f ∧
        perform (call.inOrder order) s = .ok none ⟨{ s.builder with
          group := call.place (s.builder.values.applyToGroup (g.mapLabels f)) s.builder.group
          prefixes := s.builder.prefixes.merge source }, next⟩ := by
  rcases exists_attach call with ⟨hnone, _⟩ | ⟨pattern, hpattern, _, hperform⟩
  · rw [hnone] at hg
    cases hg
  · obtain ⟨source, hgiven⟩ : ∃ source, pattern s.builder = .ok (g, source) := by
      rw [← hpattern] at hg
      cases hgiven : pattern s.builder with
      | ok given =>
        rw [hgiven] at hg
        cases hg
        exact ⟨given.2, rfl⟩
      | error e => simp [hgiven, Except.toOption] at hg
    let l : Labelling := ⟨s.nextLabel, s.builder.group.labels⟩
    cases hdraw : s.builder.allocator.allocateAll (g.collisions l.inUse).length (l.reserve g) with
    | error e m =>
      refine .inl ⟨.structural e, { s with nextLabel := m.next }, fun order => ?_⟩
      have hfails := Allocator.makeDisjoint_of_allocateAll_eq_error hdraw order
      rw [hperform]
      exact void_eq_error.mpr
        (attach_of_makeDisjoint_eq_error (l := ⟨m.next, l.inUse⟩) hgiven hfails)
    | ok nodes m =>
      refine .inr ⟨nodes.map BlankNode.label, source, m.next,
        Allocator.nodup_of_allocateAll hdraw, fun order => ?_⟩
      obtain ⟨f, hgives, hcopy⟩ := Allocator.makeDisjoint_of_allocateAll_eq_ok hdraw order
      refine ⟨f, hgives, ?_⟩
      rw [hperform]
      exact bind_of_eq_ok (attach_of_makeDisjoint_eq_ok hgiven hcopy)

/-- A call in two orders gives the same, or fails for the same reason. The sessions that it leaves are
the same, or they differ in which of the new labels stands for which of the colliding ones. -/
theorem perform_in_two_orders (call : PatternCall) (s : Session PatternBuilder)
    (early late : LabelOrder) :
    result (perform (call.inOrder early)) s = result (perform (call.inOrder late)) s ∧
      (session (perform (call.inOrder early)) s = session (perform (call.inOrder late)) s ∨
        ∃ g new source next f h, call.attached? s.builder.prefixes = some g ∧ new.Nodup ∧
          early.Gives (g.collisions s.builder.group.labels) new f ∧
          late.Gives (g.collisions s.builder.group.labels) new h ∧
          session (perform (call.inOrder early)) s = ⟨{ s.builder with
            group := call.place (s.builder.values.applyToGroup (g.mapLabels f)) s.builder.group
            prefixes := s.builder.prefixes.merge source }, next⟩ ∧
          session (perform (call.inOrder late)) s = ⟨{ s.builder with
            group := call.place (s.builder.values.applyToGroup (g.mapLabels h)) s.builder.group
            prefixes := s.builder.prefixes.merge source }, next⟩) := by
  simp only [result, session]
  cases hg : call.attached? s.builder.prefixes with
  | none =>
    have hsame := perform_inOrder_of_attached?_eq_none hg
    rw [hsame early, hsame late]
    exact ⟨rfl, .inl rfl⟩
  | some g =>
    rcases perform_inOrder hg with ⟨e, u, hfails⟩ | ⟨new, source, next, hnodup, hsucceeds⟩
    · rw [hfails early, hfails late]
      exact ⟨rfl, .inl rfl⟩
    · obtain ⟨f, hf, hearly⟩ := hsucceeds early
      obtain ⟨h, hh, hlate⟩ := hsucceeds late
      rw [hearly, hlate]
      exact ⟨rfl, .inr ⟨g, new, source, next, f, h, rfl, hnodup, hf, hh, rfl, rfl⟩⟩

end PatternBuilder

end GraphPattern
