import GraphPattern.Builder.Call
import GraphPattern.Proofs.Shorthand.Open

/-!
# Arguments without values

An argument is open if no variable in it carries a value. Shorthand always is, so what is read from
an open argument is open (`PatternArg.isOpen_body`, `PatternArg.isOpen_alternative` for patterns).
-/

namespace GraphPattern

open Steps

/-- Whether no term of the group carries a value. Entries of projections may. -/
def Group.IsOpen (g : Group) : Prop := ∀ t, Slot.term t ∈ slots g → t.IsOpen

namespace Arg

variable {α : Type} {P : α → Prop}

/-- Whether an argument that is given as a value has a property. -/
def Satisfies (P : α → Prop) : Arg α → Prop
  | .text _ => True
  | .value a => P a

theorem get_satisfies {resolve : String → Except ParseError α} {arg : Arg α} {a : α}
    (hr : ∀ shorthand a, resolve shorthand = .ok a → P a) (harg : arg.Satisfies P)
    (h : arg.get resolve = .ok a) : P a := by
  cases arg with
  | text shorthand => exact hr shorthand a (mapError_eq_ok.mp h)
  | value b =>
    cases h
    exact harg

variable {prefixes : Prefixes}

theorem term_open {arg : Arg Term} {t : Term} (harg : arg.Satisfies Term.IsOpen)
    (h : arg.term prefixes = .ok t) : t.IsOpen :=
  get_satisfies (fun _ _ => Shorthand.resolveTerm_open) harg h

theorem path_open {arg : Arg Path} {p : Path} (harg : arg.Satisfies Path.IsOpen)
    (h : arg.path prefixes = .ok p) : p.IsOpen :=
  get_satisfies (fun _ _ => Shorthand.resolvePath_open) harg h

theorem expression_open {arg : Arg Expression} {e : Expression}
    (harg : arg.Satisfies Expression.IsOpen) (h : arg.expression prefixes = .ok e) : e.IsOpen :=
  get_satisfies (fun _ _ => Shorthand.resolveExpression_open) harg h

theorem terms_open {args : List (Arg Term)} {ts : List Term}
    (hargs : ∀ a ∈ args, a.Satisfies Term.IsOpen)
    (h : args.mapM (Arg.term prefixes) = .ok ts) : ∀ t ∈ ts, t.IsOpen := by
  induction args generalizing ts with
  | nil =>
    cases h
    nofun
  | cons arg args ih =>
    rw [List.mapM_cons] at h
    obtain ⟨t, ht, h⟩ := except_bind_eq_ok.mp h
    obtain ⟨rest, hrest, h⟩ := except_bind_eq_ok.mp h
    cases h
    obtain ⟨harg, hargs⟩ := List.forall_mem_cons.mp hargs
    exact List.forall_mem_cons.mpr ⟨term_open harg ht, ih hargs hrest⟩

end Arg

/-! ## Triples and patterns -/

theorem Triple.isOpen_of_ofArgs {prefixes : Prefixes} {s o : Arg Term} {p : Arg Path} {t : Triple}
    (hs : s.Satisfies Term.IsOpen) (hp : p.Satisfies Path.IsOpen) (ho : o.Satisfies Term.IsOpen)
    (h : Triple.ofArgs prefixes s p o = .ok t) : t.IsOpen := by
  obtain ⟨subject, hsubject, h⟩ := except_bind_eq_ok.mp h
  obtain ⟨predicate, hpredicate, h⟩ := except_bind_eq_ok.mp h
  obtain ⟨object, hobject, h⟩ := except_bind_eq_ok.mp h
  cases h
  intro x hx
  rw [terms, List.mem_cons, List.mem_append, List.mem_singleton] at hx
  rcases hx with rfl | hx | rfl
  · exact Arg.term_open hs hsubject
  · exact Arg.path_open hp hpredicate x hx
  · exact Arg.term_open ho hobject

theorem Group.isOpen_subQuery {query : SubQuery} (h : query.pattern.IsOpen) :
    Group.IsOpen [query.toElement] := by
  intro t ht
  simp only [slots, SubQuery.toElement, Element.slots, List.append_nil, List.mem_append,
    List.mem_map, reduceCtorEq, and_false, exists_false, false_or] at ht
  exact h t ht

namespace PatternArg

/-- Whether no variable of a pattern carries a value. -/
def IsOpen : PatternArg → Prop
  | .triple s p o => s.Satisfies Term.IsOpen ∧ p.Satisfies Path.IsOpen ∧ o.Satisfies Term.IsOpen
  | .group g _ => g.IsOpen
  | .query q => q.pattern.IsOpen

variable {prefixes source : Prefixes} {arg : PatternArg} {g : Group}

theorem isOpen_body (harg : arg.IsOpen) (h : arg.body prefixes = .ok (g, source)) : g.IsOpen := by
  cases arg with
  | triple s p o =>
    obtain ⟨t, ht, h⟩ := except_bind_eq_ok.mp h
    cases h
    obtain ⟨hs, hp, ho⟩ := harg
    have hopen : t.IsOpen := Triple.isOpen_of_ofArgs hs hp ho ht
    intro x hx
    simp only [Group.ofTriples, Group.slots, Element.slots, List.flatMap_cons, List.flatMap_nil,
      List.append_nil, List.mem_map, Slot.term.injEq, exists_eq_right] at hx
    exact hopen x hx
  | group g' prefixes' =>
    cases h
    exact harg
  | query q =>
    cases h
    exact harg

theorem isOpen_alternative (harg : arg.IsOpen) (h : arg.alternative prefixes = .ok (g, source)) :
    g.IsOpen := by
  cases arg with
  | triple s p o => exact isOpen_body harg h
  | group g' prefixes' =>
    cases h
    exact harg
  | query q =>
    cases h
    split
    · exact harg
    · exact Group.isOpen_subQuery harg

end PatternArg

/-- Whether no variable in the arguments of a call carries a value. The variable that is computed,
resolved or freed counts by its name only. -/
def PatternCall.IsOpen : PatternCall → Prop
  | .addPrefix _ _ => True
  | .addWhere s p o => s.Satisfies Term.IsOpen ∧ p.Satisfies Path.IsOpen ∧ o.Satisfies Term.IsOpen
  | .addOptional pattern _ => pattern.IsOpen
  | .addUnion pattern _ => pattern.IsOpen
  | .addMinus pattern _ => pattern.IsOpen
  | .addSubQuery query _ => query.pattern.IsOpen
  | .addBind expression _ => expression.Satisfies Expression.IsOpen
  | .addFilter condition => condition.Satisfies Expression.IsOpen
  | .list terms => ∀ t ∈ terms, t.Satisfies Term.IsOpen
  | .setVar _ value => value.Satisfies Term.IsOpen
  | .unsetVar _ => True

end GraphPattern
