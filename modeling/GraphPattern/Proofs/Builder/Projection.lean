import Mathlib.Data.List.Induction
import GraphPattern.Proofs.Builder.Failure
import GraphPattern.Proofs.OrderedMap
import GraphPattern.Proofs.Pattern.Effective
import GraphPattern.Proofs.Shorthand.Yields

/-!
# What a query asks for

A select builder holds the value of a resolved variable twice, in its pattern builder and in the
projection. `SelectBuilder.Outcome` says all that a call can make of a select builder, and what every
outcome preserves holds after any sequence of calls. So the projection is what the names that were asked
for and the resolutions make of it (`SelectBuilder.run_projection`): no name stands twice, the first
call for a name gives its place, and the text of an entry is that of the resolution that is active now,
whenever it was made.
-/

namespace GraphPattern

open BuildM Steps

/-! ## Names that are asked for -/

theorem Shorthand.binding_of_readVariable (s : Source) :
    Yields (fun v : Variable => v.binding = none) s.readVariable := by
  intro ts v rest h
  unfold Source.readVariable at h
  split at h
  · cases h
    rfl
  · cases h
    rfl
  · cases h

/-- An argument that names a variable gives its name only. -/
theorem Arg.binding_of_var {arg : Arg Term} {v : Variable} (h : arg.var = .ok v) :
    v.binding = none := by
  cases arg with
  | text shorthand =>
    have hread := mapError_eq_ok.mp h
    exact Shorthand.resolveWith_yields
      (fun _ _ => Shorthand.parse_yields Shorthand.binding_of_readVariable) hread
  | value t =>
    unfold Arg.var at h
    dsimp only at h
    split at h
    · cases h
      rfl
    · cases h

/-- The name that a call asks for, if it names a variable. -/
def SelectCall.asked? : SelectCall → Option String
  | .addVar var => var.var.toOption.map Variable.name
  | _ => none

theorem SelectCall.asked?_addVar {var : Arg Term} {v : Variable} (h : var.var = .ok v) :
    (addVar var).asked? = some v.name := by
  rw [asked?, h]
  rfl

/-- Whether a call resolves or frees a variable. -/
def PatternCall.revises : PatternCall → Bool
  | .setVar _ _ => true
  | .unsetVar _ => true
  | _ => false

/-- Only calls that resolve or free a variable change the resolutions. -/
theorem PatternBuilder.Outcome.values_eq {b b' : PatternBuilder} {call : PatternCall}
    (h : Outcome b call b') (hcall : call.revises = false) : b'.values = b.values := by
  cases h with
  | setVar => cases hcall
  | unsetVar => cases hcall
  | _ => rfl

namespace SelectBuilder

/-! ## What calls do to a select builder -/

/-- What a successful call makes of a select builder. -/
inductive Outcome (b : SelectBuilder) : SelectCall → SelectBuilder → Prop where
  | addVar {var v} (hv : var.var = .ok v) (hnew : v.name ∉ b.projection.map Variable.name) :
      Outcome b (.addVar var) { b with projection := b.projection ++ [b.body.project v] }
  | addVarAgain {var v} (hv : var.var = .ok v) (hold : v.name ∈ b.projection.map Variable.name) :
      Outcome b (.addVar var) b
  | setDistinct (on : Bool) : Outcome b (.setDistinct on) { b with distinct := on }
  | setVar {var value v t} (hv : var.var = .ok v) (ht : value.term b.body.prefixes = .ok t) :
      Outcome b (.pattern (.setVar var value))
        { b with
          projection := b.projection.map (Variable.resolve v.name (some t))
          body :=
            { b.body with
              group := b.body.group.substitute v.name (some t)
              values := b.body.values.insert v.name t } }
  | unsetVar {var v} (hv : var.var = .ok v) :
      Outcome b (.pattern (.unsetVar var))
        { b with
          projection := b.projection.map (Variable.resolve v.name none)
          body :=
            { b.body with
              group := b.body.group.substitute v.name none
              values := b.body.values.erase v.name } }
  | pattern {call body} (hcall : call.revises = false)
      (hbody : PatternBuilder.Outcome b.body call body) :
      Outcome b (.pattern call) { b with body := body }

variable {s t : Session SelectBuilder}

/-- All else that builds the pattern is left to the pattern builder. -/
theorem perform_eq_onBody {call : PatternCall} (h : call.revises = false) :
    perform (.pattern call) = onBody (PatternBuilder.perform call) := by
  cases call with
  | setVar var value => cases h
  | unsetVar var => cases h
  | _ => rfl

theorem outcome_of_perform {call : SelectCall} {r : Option Term}
    (h : perform call s = .ok r t) : Outcome s.builder call t.builder := by
  cases call with
  | addVar var =>
    have h := ok_of_void h
    simp only [addVar, bind_eq_ok, ofExcept_eq_ok, update_eq_ok] at h
    obtain ⟨v, _, ⟨hv, rfl⟩, rfl⟩ := h
    have hasked : s.builder.projection.any (·.name = v.name) ↔
        v.name ∈ s.builder.projection.map Variable.name := by
      simp [List.mem_map]
    split
    · exact .addVarAgain hv (hasked.mp ‹_›)
    · exact .addVar hv (mt hasked.mpr ‹_›)
  | setDistinct on =>
    have h := ok_of_void h
    rw [setDistinct, update_eq_ok] at h
    subst h
    exact .setDistinct on
  | pattern call =>
    cases call with
    | setVar var value =>
      have h := ok_of_void h
      simp only [setVar, bind_eq_ok, builder_eq_ok, ofExcept_eq_ok, update_eq_ok] at h
      obtain ⟨_, _, ⟨rfl, rfl⟩, v, _, ⟨hv, rfl⟩, value, _, ⟨ht, rfl⟩, _, _, hbody, rfl⟩ := h
      obtain ⟨r, hr, rfl⟩ := onBody_eq_ok hbody
      -- the call that is passed on holds the name and the term themselves
      cases hr
      exact .setVar hv ht
    | unsetVar var =>
      have h := ok_of_void h
      simp only [unsetVar, bind_eq_ok, ofExcept_eq_ok, update_eq_ok] at h
      obtain ⟨v, _, ⟨hv, rfl⟩, _, _, hbody, rfl⟩ := h
      obtain ⟨r, hr, rfl⟩ := onBody_eq_ok hbody
      cases hr
      exact .unsetVar hv
    | _ =>
      rw [perform_eq_onBody rfl] at h
      obtain ⟨r, hr, rfl⟩ := onBody_eq_ok h
      exact .pattern rfl (PatternBuilder.outcome_of_perform hr)

/-! ## Runs -/

/-- The builder after a call, whether the call succeeds or fails. The number of the next label
stands at `next`, which depends on what other builders have done. -/
def after (b : SelectBuilder) (call : SelectCall) (next : Nat) : SelectBuilder :=
  match perform call ⟨b, next⟩ with
  | .ok _ s => s.builder
  | .error _ s => s.builder

/-- The builder after some calls, each with the number of the next label at that time. -/
def run (b : SelectBuilder) (calls : List (SelectCall × Nat)) : SelectBuilder :=
  calls.foldl (fun b c => b.after c.1 c.2) b

/-- A call succeeds if it asks for a name, so one that fails asks for none. -/
theorem asked?_eq_none_of_error {call : SelectCall} {e : Error} (h : perform call s = .error e t) :
    call.asked? = none := by
  cases call with
  | addVar var =>
    have h := void_eq_error.mp h
    simp only [addVar, bind_eq_error, ofExcept_eq_error, update_ne_error, and_false, exists_false,
      or_false] at h
    rw [SelectCall.asked?, h.1]
    rfl
  | _ => rfl

theorem after_eq_or_outcome (b : SelectBuilder) (call : SelectCall) (next : Nat) :
    b.after call next = b ∧ call.asked? = none ∨ Outcome b call (b.after call next) := by
  unfold after
  split
  · rename_i h
    exact .inr (outcome_of_perform h)
  · rename_i h
    exact .inl ⟨builder_of_perform_error h, asked?_eq_none_of_error h⟩

/-! ## Entries of the projection -/

/-- The entry of a name in a projection, under some resolutions. -/
def entry (values : Resolutions) (name : String) : Variable := ⟨name, values.lookup name⟩

theorem project_eq_entry (b : PatternBuilder) {v : Variable} (h : v.binding = none) :
    b.project v = entry b.values v.name := by
  obtain ⟨name, binding⟩ := v
  cases h
  rw [PatternBuilder.project, entry]
  split
  · rename_i hvalue
    rw [hvalue]
  · rename_i hvalue
    rw [hvalue]

theorem resolve_entry_insert (values : Resolutions) (name other : String) (t : Term) :
    (entry values other).resolve name (some t) = entry (values.insert name t) other := by
  rw [entry, entry, Variable.resolve, OrderedMap.lookup_insert]
  split <;> rfl

theorem resolve_entry_erase (values : Resolutions) (name other : String) :
    (entry values other).resolve name none = entry (values.erase name) other := by
  rw [entry, entry, Variable.resolve, OrderedMap.lookup_erase]
  split <;> rfl

/-! ## The invariant -/

/-- The projection of a builder that was asked for some names, in this order: each stands at its first
place, with the value that it is resolved to now. -/
def Projects (b : SelectBuilder) (names : List String) : Prop :=
  b.projection = names.eraseDups.map (entry b.body.values)

variable {b b' : SelectBuilder} {names : List String}

theorem Projects.map_name (h : b.Projects names) :
    b.projection.map Variable.name = names.eraseDups := by
  rw [h, List.map_map]
  exact List.map_id _

theorem eraseDups_concat (names : List String) (name : String) :
    (names ++ [name]).eraseDups =
      if name ∈ names then names.eraseDups else names.eraseDups ++ [name] := by
  rw [List.eraseDups_append]
  split
  · rename_i h
    simp [List.removeAll, h]
  · rename_i h
    simp [List.removeAll, h, List.eraseDups_cons]

theorem Projects.step {call : SelectCall} (h : b.Projects names) (hb : Outcome b call b') :
    b'.Projects (names ++ call.asked?.toList) := by
  cases hb with
  | addVar hv hnew =>
    rw [h.map_name, List.mem_eraseDups] at hnew
    rw [SelectCall.asked?_addVar hv, Option.toList_some, Projects, eraseDups_concat, if_neg hnew,
      List.map_append, ← h, project_eq_entry b.body (Arg.binding_of_var hv), List.map_singleton]
  | addVarAgain hv hold =>
    rw [h.map_name, List.mem_eraseDups] at hold
    rw [SelectCall.asked?_addVar hv, Option.toList_some, Projects, eraseDups_concat, if_pos hold]
    exact h
  | setDistinct on =>
    show Projects _ (names ++ [])
    rw [List.append_nil]
    exact h
  | setVar hv ht =>
    show Projects _ (names ++ [])
    rw [List.append_nil, Projects, h, List.map_map]
    exact List.map_congr_left fun name _ => resolve_entry_insert _ _ name _
  | unsetVar hv =>
    show Projects _ (names ++ [])
    rw [List.append_nil, Projects, h, List.map_map]
    exact List.map_congr_left fun name _ => resolve_entry_erase _ _ name
  | pattern hcall hbody =>
    show Projects _ (names ++ [])
    rw [List.append_nil, Projects, hbody.values_eq hcall]
    exact h

theorem Projects.run (h : b.Projects names) (calls : List (SelectCall × Nat)) :
    (b.run calls).Projects (names ++ calls.filterMap (·.1.asked?)) := by
  induction calls generalizing b names with
  | nil =>
    rw [List.filterMap_nil, List.append_nil]
    exact h
  | cons c calls ih =>
    have hc : (b.after c.1 c.2).Projects (names ++ c.1.asked?.toList) := by
      rcases after_eq_or_outcome b c.1 c.2 with ⟨heq, hnone⟩ | hb
      · rw [heq, hnone, Option.toList_none, List.append_nil]
        exact h
      · exact h.step hb
    have hnames : (c :: calls).filterMap (·.1.asked?) =
        c.1.asked?.toList ++ calls.filterMap (·.1.asked?) := by
      cases hasked : c.1.asked? <;> simp [hasked]
    rw [hnames, ← List.append_assoc]
    exact ih hc

/-! ## The projection -/

theorem nodup_eraseDups (names : List String) : names.eraseDups.Nodup := by
  induction names using List.reverseRecOn with
  | nil => exact List.nodup_nil
  | append_singleton names name ih =>
    rw [eraseDups_concat]
    split
    · exact ih
    · rename_i h
      rw [← List.concat_eq_append]
      exact ih.concat (mt List.mem_eraseDups.mp h)

/-- A variable in the projection of a query, under some resolutions: with its value, if it is
resolved. -/
def entryText (values : Resolutions) (name : String) : String :=
  match values.lookup name with
  | some value => "(" ++ value.render ++ " AS " ++ ("?" ++ name) ++ ")"
  | none => "?" ++ name

theorem renderProjected_entry (values : Resolutions) (name : String) :
    (entry values name).renderProjected = entryText values name := rfl

/-- A call for a variable succeeds exactly if its argument names one. -/
theorem addVar_succeeds_iff (var : Arg Term) (s : Session SelectBuilder) :
    (∃ t, perform (.addVar var) s = .ok none t) ↔ (SelectCall.addVar var).asked?.isSome := by
  cases hv : var.var with
  | ok v =>
    rw [SelectCall.asked?_addVar hv, perform, addVar, hv]
    exact ⟨fun _ => rfl, fun _ => ⟨_, rfl⟩⟩
  | error e =>
    rw [SelectCall.asked?, hv, perform, addVar, hv]
    constructor
    · rintro ⟨t, h⟩
      cases h
    · intro h
      cases h

/-- After any calls, failing ones included, the projection holds the names that successful calls asked
for, each once and in the order in which they were first asked for. Each is bound to what its variable
is resolved to by now, if it is resolved, and this is what the text of the query says. -/
theorem run_projection (config : Config) (calls : List (SelectCall × Nat)) :
    let b := (new config).run calls
    let names := b.projection.map Variable.name
    names = (calls.filterMap (·.1.asked?)).eraseDups ∧ names.Nodup ∧
      (∀ var s, (∃ t, perform (.addVar var) s = .ok none t) ↔
        (SelectCall.addVar var).asked?.isSome) ∧
      (∀ v ∈ b.projection, v.binding = b.body.values.lookup v.name) ∧
      b.render = String.join (b.body.prefixes.toList.map fun e =>
          Query.renderDeclaration e.1 e.2 ++ b.body.layout.lineBreak 0) ++
        ("SELECT " ++ (if b.distinct then "DISTINCT " else "") ++
          (if names.isEmpty then "*" else " ".intercalate (names.map (entryText b.body.values))) ++
          " WHERE ") ++ b.body.render := by
  intro b names
  have hnew : (new config).Projects [] := rfl
  have h : b.Projects (calls.filterMap (·.1.asked?)) := hnew.run calls
  have hnames : names = (calls.filterMap (·.1.asked?)).eraseDups := h.map_name
  refine ⟨hnames, hnames ▸ nodup_eraseDups _, addVar_succeeds_iff, ?_, ?_⟩
  · intro v hv
    rw [h] at hv
    obtain ⟨name, _, rfl⟩ := List.mem_map.mp hv
    rfl
  · have htexts : b.projection.map Variable.renderProjected = names.map (entryText b.body.values) := by
      rw [hnames, h, List.map_map]
      exact List.map_congr_left fun name _ => renderProjected_entry _ name
    have hempty : b.projection.isEmpty = names.isEmpty := by rw [List.isEmpty_map]
    rw [render_eq_append, renderHead, htexts, hempty]

end SelectBuilder

end GraphPattern
