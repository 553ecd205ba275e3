import GraphPattern.Pattern
import GraphPattern.Proofs.Shorthand.Yields

/-!
# Shorthand has no values

A term, a path or an expression is open if none of its variables carries a value. All that is read
from shorthand is open: a variable is read as a name and gets a value by substitution only
(`Shorthand.resolveTerm_open`, `Shorthand.resolvePath_open`, `Shorthand.resolveExpression_open`).
-/

namespace GraphPattern

/-- Whether the term is no variable that carries a value. -/
def Term.IsOpen (t : Term) : Prop := ∀ name value, t ≠ .bound name value

/-- Whether no variable in the path carries a value. -/
def Path.IsOpen (p : Path) : Prop := ∀ t ∈ p.terms, t.IsOpen

/-- Whether no variable in the expression carries a value. -/
def Expression.IsOpen (e : Expression) : Prop := ∀ t ∈ e.terms, t.IsOpen

/-- Whether no variable in the triple carries a value. -/
def Triple.IsOpen (t : Triple) : Prop := ∀ x ∈ t.terms, x.IsOpen

/-! ## Paths and their steps -/

namespace Path

@[simp] theorem isOpen_predicate {t : Term} : (predicate t).IsOpen ↔ t.IsOpen := by
  simp [IsOpen, terms]

theorem forall_mem_termsOfSteps {ps : List Path} :
    (∀ t ∈ termsOfSteps ps, t.IsOpen) ↔ ∀ p ∈ ps, p.IsOpen := by
  induction ps with
  | nil => simp [termsOfSteps]
  | cons p ps ih =>
    rw [termsOfSteps, List.forall_mem_append, List.forall_mem_cons, ih]
    rfl

@[simp] theorem isOpen_sequence {ps : List Path} :
    (sequence ps).IsOpen ↔ ∀ p ∈ ps, p.IsOpen := by
  rw [IsOpen, terms, forall_mem_termsOfSteps]

theorem IsOpen.steps {p : Path} (h : p.IsOpen) : ∀ q ∈ p.steps, q.IsOpen := by
  cases p with
  | predicate t => simpa [Path.steps] using h
  | sequence ps => exact isOpen_sequence.mp h

theorem isOpen_of_sequence? {ps : List Path} {p : Path} (h : ∀ q ∈ ps, q.IsOpen)
    (hp : sequence? ps = some p) : p.IsOpen := by
  -- a sequence among the paths is spliced in, so the steps are those of the parts
  have hsteps : ∀ q ∈ ps.flatMap Path.steps, q.IsOpen := by
    intro q hq
    obtain ⟨r, hr, hq⟩ := List.mem_flatMap.mp hq
    exact (h r hr).steps q hq
  unfold sequence? at hp
  split at hp
  · cases hp
  · rename_i hflat
    cases hp
    exact hsteps _ (by simp [hflat])
  · cases hp
    exact isOpen_sequence.mpr hsteps

end Path

/-! ## Expressions and their operands -/

namespace Expression

theorem forall_mem_termsOfAll {es : List Expression} :
    (∀ t ∈ termsOfAll es, t.IsOpen) ↔ ∀ e ∈ es, e.IsOpen := by
  induction es with
  | nil => simp [termsOfAll]
  | cons e es ih =>
    rw [termsOfAll, List.forall_mem_append, List.forall_mem_cons, ih]
    rfl

@[simp] theorem isOpen_term {t : Term} : (term t).IsOpen ↔ t.IsOpen := by
  simp [IsOpen, terms]

@[simp] theorem isOpen_binary {op : BinaryOp} {l r : Expression} :
    (binary op l r).IsOpen ↔ l.IsOpen ∧ r.IsOpen := by
  rw [IsOpen, terms, List.forall_mem_append]
  rfl

@[simp] theorem isOpen_unary {op : UnaryOp} {e : Expression} : (unary op e).IsOpen ↔ e.IsOpen := by
  simp [IsOpen, terms]

@[simp] theorem isOpen_call {c : Callee} {es : List Expression} :
    (call c es).IsOpen ↔ ∀ e ∈ es, e.IsOpen := by
  rw [IsOpen, terms, forall_mem_termsOfAll]

@[simp] theorem isOpen_isIn {e : Expression} {es : List Expression} {negated : Bool} :
    (isIn e es negated).IsOpen ↔ e.IsOpen ∧ ∀ e' ∈ es, e'.IsOpen := by
  rw [IsOpen, terms, List.forall_mem_append, forall_mem_termsOfAll]
  rfl

end Expression

namespace Shorthand

open Steps

theorem wordTerm_open (word : String) : (wordTerm word).IsOpen := by
  unfold wordTerm
  repeat' split
  all_goals nofun

namespace Source

variable {s : Source}

/-! ## Terms -/

theorem asTerm_open {result : Except Fault (Literal × List Token)} {t : Term} {rest : List Token}
    (h : asTerm result = .ok (t, rest)) : t.IsOpen := by
  obtain ⟨l, _, rfl⟩ := asTerm_eq_ok h
  nofun

theorem readTerm_open : Yields Term.IsOpen s.readTerm := by
  intro ts t rest h
  cases ts with
  | nil => cases h
  | cons token ts =>
    obtain ⟨kind, span⟩ := token
    cases kind with
    | prefixedName label name =>
      obtain ⟨iri, _, h⟩ := except_bind_eq_ok.mp h
      cases h
      nofun
    | string value language => exact asTerm_open h
    | plus => exact asTerm_open h
    | minus => exact asTerm_open h
    | word text =>
      cases h
      exact wordTerm_open text
    | _ =>
      cases h
      try nofun

/-! ## Paths -/

theorem admitsPath_open : AdmitsPath Path.IsOpen where
  iri _ := Path.isOpen_predicate.mpr nofun
  free _ := Path.isOpen_predicate.mpr nofun
  sequence := Path.isOpen_of_sequence?

/-! ## Expressions -/

theorem admits_open : Admits s (fun _ => True) Expression.IsOpen where
  term _ _ _ _ ht := ⟨Expression.isOpen_term.mpr (readTerm_open ht), fun _ _ => trivial⟩
  binary hl hr := Expression.isOpen_binary.mpr ⟨hl, hr⟩
  unary he := Expression.isOpen_unary.mpr he
  builtin _ hes := Expression.isOpen_call.mpr hes
  iri _ hes := Expression.isOpen_call.mpr hes
  isIn he hes := Expression.isOpen_isIn.mpr ⟨he, hes⟩

theorem readExpression_open : Yields Expression.IsOpen s.readExpression :=
  fun _ _ _ h => (readExpression_yields admits_open (fun _ _ => trivial) h).1

end Source

/-! ## Texts -/

theorem resolveTerm_open {prefixes : Prefixes} {token : String} {t : Term}
    (h : resolveTerm prefixes token = .ok t) : t.IsOpen := by
  refine resolveWith_yields (fun text a ha => ?_) h
  split at ha
  · cases ha
    exact wordTerm_open text
  · exact parse_yields (fun _ => Source.readTerm_open) ha

theorem resolvePath_open {prefixes : Prefixes} {token : String} {p : Path}
    (h : resolvePath prefixes token = .ok p) : p.IsOpen :=
  resolvePath_yields Source.admitsPath_open h

theorem resolveExpression_open {prefixes : Prefixes} {token : String} {e : Expression}
    (h : resolveExpression prefixes token = .ok e) : e.IsOpen :=
  resolveWith_yields (fun _ _ ha => parse_yields (fun _ => Source.readExpression_open) ha) h

end Shorthand

end GraphPattern
