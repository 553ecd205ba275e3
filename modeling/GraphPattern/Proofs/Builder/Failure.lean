import GraphPattern.Proofs.Builder.Outcome
import GraphPattern.Proofs.Collection

/-!
# Calls that fail

A call of a pattern builder or of a select builder that fails, for whatever reason, leaves the builder
as it was (`failed_call_atomic`). Numbers for labels may have been used up by then: their count goes up
only, as it does with calls that succeed (`PatternBuilder.grows_perform`,
`SelectBuilder.grows_perform`).
-/

namespace GraphPattern

open BuildM Steps

/-! ## Pattern builders -/

namespace PatternBuilder

theorem grows_withLabels {α : Type} {m : LabelM α} (hm : Grows Labelling.next m) :
    Grows Session.nextLabel (withLabels m) where
  ok h := by
    obtain ⟨l, hl, rfl⟩ := withLabels_eq_ok h
    exact hm.ok hl
  error h := by
    obtain ⟨_, l, hl, rfl⟩ := withLabels_eq_error h
    exact hm.error hl

theorem grows_adopt (g : Group) (source : Prefixes) (order : LabelOrder) :
    Grows Session.nextLabel (adopt g source order) :=
  grows_builder.bind fun b =>
    (grows_withLabels (b.allocator.grows_makeDisjoint g order)).bind fun _ =>
      (grows_update _).bind fun _ => grows_pure _

theorem grows_attach (pattern : PatternBuilder → Except Error (Group × Prefixes))
    (order : LabelOrder) (put : Group → PatternBuilder → PatternBuilder) :
    Grows Session.nextLabel (attach pattern order put) :=
  grows_builder.bind fun _ => (grows_ofExcept _).bind fun _ =>
    (grows_adopt _ _ _).bind fun _ => grows_update _

theorem grows_setVar (var value : Arg Term) : Grows Session.nextLabel (setVar var value) :=
  grows_builder.bind fun _ => (grows_ofExcept _).bind fun _ => (grows_ofExcept _).bind fun _ =>
    grows_update _

theorem grows_unsetVar (var : Arg Term) : Grows Session.nextLabel (unsetVar var) :=
  (grows_ofExcept _).bind fun _ => grows_update _

theorem grows_perform (call : PatternCall) : Grows Session.nextLabel (perform call) := by
  cases call with
  | addPrefix label ns => exact grows_void (grows_update _)
  | addWhere subject predicate object =>
    exact grows_void (grows_builder.bind fun _ => (grows_ofExcept _).bind fun _ => grows_update _)
  | addOptional pattern order => exact grows_void (grows_attach _ _ _)
  | addUnion pattern order => exact grows_void (grows_attach _ _ _)
  | addMinus pattern order => exact grows_void (grows_attach _ _ _)
  | addSubQuery query order => exact grows_void ((grows_adopt _ _ _).bind fun _ => grows_update _)
  | addBind expression target =>
    refine grows_void ((grows_ofExcept _).bind fun v => grows_builder.bind fun b => ?_)
    cases hvalue : b.valueOf? v.name with
    | some value => exact grows_ofExcept _
    | none => exact (grows_ofExcept _).bind fun _ => grows_update _
  | addFilter condition =>
    exact grows_void (grows_builder.bind fun _ => (grows_ofExcept _).bind fun _ => grows_update _)
  | list terms =>
    refine Grows.map ?_ some
    exact grows_builder.bind fun b => (grows_ofExcept _).bind fun _ =>
      (grows_withLabels (Collection.grows_ofTerms b.allocator _)).bind fun _ =>
        (grows_update _).bind fun _ => grows_pure _
  | setVar var value => exact grows_void (grows_setVar var value)
  | unsetVar var => exact grows_void (grows_unsetVar var)

end PatternBuilder

/-! ## Select builders -/

namespace SelectBuilder

variable {s t : Session SelectBuilder}

theorem onBody_eq_ok {α : Type} {m : BuildM PatternBuilder α} {a : α} (h : onBody m s = .ok a t) :
    ∃ r, m ⟨s.builder.body, s.nextLabel⟩ = .ok a r ∧
      t = ⟨{ s.builder with body := r.builder }, r.nextLabel⟩ := by
  unfold onBody at h
  split at h
  · rename_i r hm
    cases h
    exact ⟨r, hm, rfl⟩
  · cases h

theorem onBody_eq_error {α : Type} {m : BuildM PatternBuilder α} {e : Error}
    (h : onBody m s = .error e t) :
    ∃ r, m ⟨s.builder.body, s.nextLabel⟩ = .error e r ∧
      t = ⟨{ s.builder with body := r.builder }, r.nextLabel⟩ := by
  unfold onBody at h
  split at h
  · cases h
  · rename_i r hm
    cases h
    exact ⟨r, hm, rfl⟩

theorem grows_onBody {α : Type} {m : BuildM PatternBuilder α} (hm : Grows Session.nextLabel m) :
    Grows Session.nextLabel (onBody m) where
  ok h := by
    obtain ⟨r, hr, rfl⟩ := onBody_eq_ok h
    exact hm.ok hr
  error h := by
    obtain ⟨r, hr, rfl⟩ := onBody_eq_error h
    exact hm.error hr

/-- A step of the pattern builder that leaves it as it was when it fails does so here too. -/
theorem builder_of_onBody_error {α : Type} {m : BuildM PatternBuilder α} {e : Error}
    (hm : ∀ {r r'}, m r = .error e r' → r'.builder = r.builder) (h : onBody m s = .error e t) :
    t.builder = s.builder := by
  obtain ⟨r, hr, rfl⟩ := onBody_eq_error h
  have hbody : r.builder = s.builder.body := hm hr
  rw [hbody]

/-- All calls that build the pattern are left to the pattern builder, but for the two that concern the
projection too. -/
theorem perform_pattern (call : PatternCall) :
    (∃ var value, call = .setVar var value) ∨ (∃ var, call = .unsetVar var) ∨
      perform (.pattern call) = onBody (PatternBuilder.perform call) := by
  cases call with
  | setVar var value => exact .inl ⟨var, value, rfl⟩
  | unsetVar var => exact .inr (.inl ⟨var, rfl⟩)
  | _ => exact .inr (.inr rfl)

theorem grows_perform (call : SelectCall) : Grows Session.nextLabel (perform call) := by
  cases call with
  | addVar var => exact grows_void ((grows_ofExcept _).bind fun _ => grows_update _)
  | setDistinct on => exact grows_void (grows_update _)
  | pattern call =>
    obtain ⟨var, value, rfl⟩ | ⟨var, rfl⟩ | hcall := perform_pattern call
    · exact grows_void (grows_builder.bind fun _ => (grows_ofExcept _).bind fun _ =>
        (grows_ofExcept _).bind fun _ => (grows_onBody (PatternBuilder.grows_setVar _ _)).bind
          fun _ => grows_update _)
    · exact grows_void ((grows_ofExcept _).bind fun _ =>
        (grows_onBody (PatternBuilder.grows_unsetVar _)).bind fun _ => grows_update _)
    · rw [hcall]
      exact grows_onBody (PatternBuilder.grows_perform call)

/-- A call that fails leaves the builder as it was. -/
theorem builder_of_perform_error {call : SelectCall} {e : Error}
    (h : perform call s = .error e t) : t.builder = s.builder := by
  cases call with
  | addVar var =>
    have h := void_eq_error.mp h
    simp only [addVar, bind_eq_error, ofExcept_eq_error, update_ne_error, and_false, exists_false,
      or_false] at h
    rw [h.2]
  | setDistinct on => exact absurd (void_eq_error.mp h) update_ne_error
  | pattern call =>
    obtain ⟨var, value, rfl⟩ | ⟨var, rfl⟩ | hcall := perform_pattern call
    · have h := void_eq_error.mp h
      simp only [setVar, bind_eq_error, builder_eq_ok, builder_ne_error, ofExcept_eq_ok,
        ofExcept_eq_error, update_ne_error, and_false, exists_false, or_false, false_or] at h
      obtain ⟨_, _, ⟨rfl, rfl⟩, ⟨_, rfl⟩ | ⟨_, _, ⟨_, rfl⟩, ⟨_, rfl⟩ | ⟨_, _, ⟨_, rfl⟩, hbody⟩⟩⟩ := h
      · rfl
      · rfl
      · -- the projection is changed after the pattern, which may have failed
        exact builder_of_onBody_error PatternBuilder.setVar_eq_error hbody
    · have h := void_eq_error.mp h
      simp only [unsetVar, bind_eq_error, ofExcept_eq_ok, ofExcept_eq_error, update_ne_error,
        and_false, exists_false, or_false] at h
      obtain ⟨_, rfl⟩ | ⟨_, _, ⟨_, rfl⟩, hbody⟩ := h
      · rfl
      · exact builder_of_onBody_error PatternBuilder.unsetVar_eq_error hbody
    · rw [hcall] at h
      exact builder_of_onBody_error PatternBuilder.builder_of_perform_error h

end SelectBuilder

/-! ## Both -/

/-- A call that fails, of a pattern builder or of a select builder, leaves all parts of the builder as
they were. The number of the next label may be higher than before. -/
theorem failed_call_atomic :
    (∀ (call : PatternCall) (s t : Session PatternBuilder) (e : Error),
      PatternBuilder.perform call s = .error e t →
        t.builder = s.builder ∧ s.nextLabel ≤ t.nextLabel) ∧
    ∀ (call : SelectCall) (s t : Session SelectBuilder) (e : Error),
      SelectBuilder.perform call s = .error e t →
        t.builder = s.builder ∧ s.nextLabel ≤ t.nextLabel := by
  constructor
  · intro call s t e h
    exact ⟨PatternBuilder.builder_of_perform_error h, (PatternBuilder.grows_perform call).error h⟩
  · intro call s t e h
    exact ⟨SelectBuilder.builder_of_perform_error h, (SelectBuilder.grows_perform call).error h⟩

/-- A builder that tries one number for a label, with a label of its own. -/
def PatternBuilder.cramped : PatternBuilder :=
  { new { allocator := ⟨"b", 1⟩ } with group := [.filter (.term (.blank ⟨"b7"⟩))] }

/-- The one number tried for a copy of the builder itself is that of its label. It is used up; the
group, the prefixes and what is projected stay. -/
theorem failed_call_atomic_cramped :
    (∃ t, PatternBuilder.perform (.addOptional PatternBuilder.cramped.toArg)
        ⟨PatternBuilder.cramped, 7⟩ = .error (.structural (.labelsExhausted 1)) t ∧
      t.builder = PatternBuilder.cramped ∧ 7 ≤ t.nextLabel) ∧
    ∃ t, SelectBuilder.perform (.pattern (.addOptional PatternBuilder.cramped.toArg))
        ⟨⟨true, [⟨"x", none⟩], PatternBuilder.cramped⟩, 7⟩ =
          .error (.structural (.labelsExhausted 1)) t ∧
      t.builder = ⟨true, [⟨"x", none⟩], PatternBuilder.cramped⟩ ∧ 7 ≤ t.nextLabel := by
  have hpattern : PatternBuilder.perform (.addOptional PatternBuilder.cramped.toArg)
        ⟨PatternBuilder.cramped, 7⟩ =
      .error (.structural (.labelsExhausted 1)) ⟨PatternBuilder.cramped, 8⟩ := by
    rfl
  have hquery : SelectBuilder.perform (.pattern (.addOptional PatternBuilder.cramped.toArg))
        ⟨⟨true, [⟨"x", none⟩], PatternBuilder.cramped⟩, 7⟩ =
      .error (.structural (.labelsExhausted 1))
        ⟨⟨true, [⟨"x", none⟩], PatternBuilder.cramped⟩, 8⟩ := by
    rfl
  exact ⟨⟨_, hpattern, failed_call_atomic.1 _ _ _ _ hpattern⟩,
    _, hquery, failed_call_atomic.2 _ _ _ _ hquery⟩

end GraphPattern
