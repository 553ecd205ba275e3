import GraphPattern.Proofs.Builder.Argument
import GraphPattern.Proofs.Builder.Emission
import GraphPattern.Proofs.Builder.Projection
import GraphPattern.Proofs.Pattern.Shape

/-!
# Builders keep the shape of patterns

Where typed paths and groups are well shaped, so are the groups of all builders, and what passes make of
them (`isWellShaped_of_reached`). The builders are those that calls lead to from the start, and a builder
that was reached may itself be an argument of a call.
-/

namespace GraphPattern

open Steps

/-! ## What is passed in -/

theorem Shorthand.admitsPath_flat : AdmitsPath Path.IsFlat where
  iri _ := trivial
  free _ := trivial
  sequence := Path.isFlat_of_sequence?

theorem Triple.isFlat_of_ofArgs {prefixes : Prefixes} {s o : Arg Term} {p : Arg Path} {t : Triple}
    (hp : p.Satisfies Path.IsFlat) (h : Triple.ofArgs prefixes s p o = .ok t) :
    t.predicate.IsFlat := by
  obtain ⟨_, _, h⟩ := except_bind_eq_ok.mp h
  obtain ⟨predicate, hpredicate, h⟩ := except_bind_eq_ok.mp h
  obtain ⟨_, _, h⟩ := except_bind_eq_ok.mp h
  cases h
  exact Arg.get_satisfies (fun _ _ => Shorthand.resolvePath_yields Shorthand.admitsPath_flat) hp
    hpredicate

namespace PatternArg

/-- Whether a typed path is flat, and a group well shaped. -/
def IsWellShaped : PatternArg → Prop
  | .triple _ p _ => p.Satisfies Path.IsFlat
  | .group g _ => g.IsWellShaped
  | .query q => q.pattern.IsWellShaped

variable {prefixes source : Prefixes} {arg : PatternArg} {g : Group}

theorem isWellShaped_body (harg : arg.IsWellShaped) (h : arg.body prefixes = .ok (g, source)) :
    g.IsWellShaped := by
  cases arg with
  | triple s p o =>
    obtain ⟨t, ht, h⟩ := except_bind_eq_ok.mp h
    cases h
    exact ⟨List.forall_mem_singleton.mpr (Triple.isFlat_of_ofArgs harg ht), trivial⟩
  | group g' prefixes' =>
    cases h
    exact harg
  | query q =>
    cases h
    exact harg

theorem isWellShaped_alternative (harg : arg.IsWellShaped)
    (h : arg.alternative prefixes = .ok (g, source)) : g.IsWellShaped := by
  cases arg with
  | triple s p o => exact isWellShaped_body harg h
  | group g' prefixes' =>
    cases h
    exact harg
  | query q =>
    cases h
    split
    · exact harg
    · exact ⟨⟨trivial, harg⟩, trivial⟩

end PatternArg

/-- The patterns that a call passes in. -/
def PatternCall.patterns : PatternCall → List PatternArg
  | .addWhere s p o => [.triple s p o]
  | .addOptional pattern _ => [pattern]
  | .addUnion pattern _ => [pattern]
  | .addMinus pattern _ => [pattern]
  | .addSubQuery query _ => [.query query]
  | _ => []

/-- The patterns that a call passes in. -/
def SelectCall.patterns : SelectCall → List PatternArg
  | .pattern call => call.patterns
  | _ => []

/-! ## What builders hold -/

theorem Collection.isFlat_of_mem_link {pairs : List (BlankNode × Term)} :
    ∀ t ∈ link pairs, t.predicate.IsFlat := by
  induction pairs with
  | nil => nofun
  | cons p pairs ih =>
    obtain ⟨node, value⟩ := p
    exact List.forall_mem_cons.mpr ⟨trivial, List.forall_mem_cons.mpr ⟨trivial, ih⟩⟩

theorem Resolutions.isWellShaped_applyToGroup (values : Resolutions) {g : Group}
    (hg : g.IsWellShaped) : (values.applyToGroup g).IsWellShaped :=
  replay_preserves hg fun name value _ _ hh => hh.substitute name value

namespace PatternBuilder

variable {b b' : PatternBuilder} {call : PatternCall} {g h : Group}

theorem Adopts.isWellShaped (hadopts : b.Adopts g h) (hg : g.IsWellShaped) : h.IsWellShaped := by
  obtain ⟨_, _, _, copy, _, hcopy, rfl⟩ := hadopts
  obtain ⟨r, rfl⟩ := Allocator.makeDisjoint_eq_ok hcopy
  exact b.values.isWellShaped_applyToGroup (hg.relabel r)

/-- A successful call keeps the shape. -/
theorem Outcome.isWellShaped (hb : Outcome b call b') (hg : b.group.IsWellShaped)
    (hargs : ∀ arg ∈ call.patterns, arg.IsWellShaped) : b'.group.IsWellShaped := by
  cases hb with
  | addPrefix label ns => exact hg
  | addWhere ht =>
    have hp := hargs _ (List.mem_singleton.mpr rfl)
    exact hg.pushTriple ((Triple.isFlat_of_ofArgs hp ht).map _)
  | addOptional hp hadopts =>
    have harg := hargs _ (List.mem_singleton.mpr rfl)
    exact hg.concat ⟨trivial, hadopts.isWellShaped (PatternArg.isWellShaped_body harg hp)⟩
  | addUnion hp hadopts =>
    have harg := hargs _ (List.mem_singleton.mpr rfl)
    exact hg.pushAlternative
      (hadopts.isWellShaped (PatternArg.isWellShaped_alternative harg hp))
  | addMinus hp hadopts =>
    have harg := hargs _ (List.mem_singleton.mpr rfl)
    exact hg.concat ⟨trivial, hadopts.isWellShaped (PatternArg.isWellShaped_body harg hp)⟩
  | addSubQuery hadopts =>
    have hquery := hargs _ (List.mem_singleton.mpr rfl)
    exact hg.append (hadopts.isWellShaped ⟨⟨trivial, hquery⟩, trivial⟩)
  | addBind hv hfree he => exact hg.concat (Arg.binding_of_var hv)
  | addFilter he => exact hg.concat trivial
  | list hm hc =>
    obtain ⟨pairs, _, htriples, _⟩ := Collection.ofTerms_eq_ok hc
    rw [htriples]
    exact hg.pushTriples Collection.isFlat_of_mem_link
  | setVar hv ht => exact hg.substitute _ _
  | unsetVar hv => exact hg.substitute _ _

theorem isWellShaped_after (hg : b.group.IsWellShaped) (next : Nat)
    (hargs : ∀ arg ∈ call.patterns, arg.IsWellShaped) :
    (b.after call next).group.IsWellShaped := by
  rcases after_eq_or_outcome b call next with heq | hb
  · rw [heq]
    exact hg
  · exact hb.isWellShaped hg hargs

end PatternBuilder

namespace SelectBuilder

variable {b b' : SelectBuilder} {call : SelectCall}

theorem Outcome.isWellShaped (hb : Outcome b call b') (hg : b.body.group.IsWellShaped)
    (hargs : ∀ arg ∈ call.patterns, arg.IsWellShaped) : b'.body.group.IsWellShaped := by
  cases hb with
  | addVar hv hnew => exact hg
  | addVarAgain hv hold => exact hg
  | setDistinct on => exact hg
  | setVar hv ht => exact hg.substitute _ _
  | unsetVar hv => exact hg.substitute _ _
  | pattern hcall hbody => exact hbody.isWellShaped hg hargs

theorem isWellShaped_after (hg : b.body.group.IsWellShaped) (next : Nat)
    (hargs : ∀ arg ∈ call.patterns, arg.IsWellShaped) :
    (b.after call next).body.group.IsWellShaped := by
  rcases after_eq_or_outcome b call next with ⟨heq, _⟩ | hb
  · rw [heq]
    exact hg
  · exact hb.isWellShaped hg hargs

end SelectBuilder

/-! ## Builders that are reached -/

mutual

/-- The pattern builders that calls lead to, failing ones included. -/
inductive PatternBuilder.Reached : PatternBuilder → Prop
  | new (config : Config) : PatternBuilder.Reached (.new config)
  | after {b : PatternBuilder} {call : PatternCall} (next : Nat) (hb : PatternBuilder.Reached b)
    (hargs : ∀ arg ∈ call.patterns, PatternArg.Given arg) :
    PatternBuilder.Reached (b.after call next)

/-- The select builders that calls lead to, failing ones included. -/
inductive SelectBuilder.Reached : SelectBuilder → Prop
  | new (config : Config) : SelectBuilder.Reached (.new config)
  | after {b : SelectBuilder} {call : SelectCall} (next : Nat) (hb : SelectBuilder.Reached b)
    (hargs : ∀ arg ∈ call.patterns, PatternArg.Given arg) :
    SelectBuilder.Reached (b.after call next)

/-- The patterns that are passed to calls: those with flat paths or well-shaped groups, and builders that
were reached. -/
inductive PatternArg.Given : PatternArg → Prop
  | typed {arg : PatternArg} (h : arg.IsWellShaped) : PatternArg.Given arg
  | patternBuilder {b : PatternBuilder} (hb : PatternBuilder.Reached b) : PatternArg.Given b.toArg
  | selectBuilder {b : SelectBuilder} (hb : SelectBuilder.Reached b) : PatternArg.Given b.toArg

end

mutual

theorem PatternBuilder.Reached.isWellShaped :
    ∀ {b : PatternBuilder}, b.Reached → b.group.IsWellShaped
  | _, .new _ => trivial
  | _, .after next hb hargs =>
    PatternBuilder.isWellShaped_after hb.isWellShaped next fun arg harg => (hargs arg harg).isWellShaped

theorem SelectBuilder.Reached.isWellShaped :
    ∀ {b : SelectBuilder}, b.Reached → b.body.group.IsWellShaped
  | _, .new _ => trivial
  | _, .after next hb hargs =>
    SelectBuilder.isWellShaped_after hb.isWellShaped next fun arg harg => (hargs arg harg).isWellShaped

theorem PatternArg.Given.isWellShaped : ∀ {arg : PatternArg}, arg.Given → arg.IsWellShaped
  | _, .typed h => h
  | _, .patternBuilder hb => hb.isWellShaped
  | _, .selectBuilder hb => hb.isWellShaped

end

/-- The group of a builder that calls lead to is well shaped, if typed paths are flat and typed groups well
shaped. So are the results of substituting in it, of relabelling it, and of putting values in place of
variables. -/
theorem isWellShaped_of_reached {g : Group}
    (hg : (∃ b : PatternBuilder, b.Reached ∧ b.group = g) ∨
      ∃ b : SelectBuilder, b.Reached ∧ b.body.group = g) :
    g.IsWellShaped ∧ (∀ name value, (g.substitute name value).IsWellShaped) ∧
      (∀ r, (g.relabel r).IsWellShaped) ∧ g.effective.IsWellShaped := by
  have hshape : g.IsWellShaped := by
    rcases hg with ⟨b, hb, rfl⟩ | ⟨b, hb, rfl⟩
    · exact hb.isWellShaped
    · exact hb.isWellShaped
  exact ⟨hshape, hshape.substitute, hshape.relabel, hshape.effective⟩

/-- A builder with a computed variable is an alternative of a query, next to a triple with a path of two
steps. -/
theorem isWellShaped_of_reached_union :
    let inner := (PatternBuilder.new {}).after
      (.addBind (.value (.term (.free "y"))) (.value (.bound "x" (.iri ⟨"c"⟩)))) 0
    let outer := ((SelectBuilder.new {}).after (.pattern (.addUnion inner.toArg)) 0).after
      (.pattern (.addUnion (.triple (.value (.free "x"))
        (.value (.sequence [.predicate (.iri ⟨"p"⟩), .predicate (.free "q")]))
        (.value (.free "y"))))) 0
    outer.body.group = [.union [[.bind (.term (.free "y")) ⟨"x", none⟩],
        [.block [⟨.free "x", .sequence [.predicate (.iri ⟨"p"⟩), .predicate (.free "q")],
          .free "y"⟩]]]] ∧
      outer.body.group.IsWellShaped ∧
      (∀ name value, (outer.body.group.substitute name value).IsWellShaped) ∧
      (∀ r, (outer.body.group.relabel r).IsWellShaped) ∧ outer.body.group.effective.IsWellShaped := by
  intro inner outer
  have hinner : inner.Reached := .after 0 (.new {}) nofun
  have hpath : Path.IsFlat (.sequence [.predicate (.iri ⟨"p"⟩), .predicate (.free "q")]) :=
    ⟨by decide, by simp [Path.IsPredicate]⟩
  have houter : outer.Reached := by
    refine .after 0 (.after 0 (.new {}) ?_) ?_
    · exact List.forall_mem_singleton.mpr (.patternBuilder hinner)
    · exact List.forall_mem_singleton.mpr (.typed hpath)
  exact ⟨rfl, isWellShaped_of_reached (.inr ⟨outer, houter, rfl⟩)⟩

end GraphPattern
