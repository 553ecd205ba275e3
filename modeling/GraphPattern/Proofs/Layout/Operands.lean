import GraphPattern.Proofs.Layout.Terms

/-!
# How an expression is put together from operands

Operands that are not in parentheses follow one another in a text without structure. So an expression is
taken apart into its first operand and what stands behind it, operators with what they are applied to
(`Expression.Spine`): from tight to loose, which is what tells them apart from the operators that stand
behind the whole (`Expression.Closes`). An operand starts in a way that tells whether it is in
parentheses (`Expression.exists_front`).
-/

namespace GraphPattern

open Shorthand

variable {r s : List Char}

/-! ## What is called -/

/-- Whether what is called is an IRI or a name. -/
def Callee.IsClean : Callee → Prop
  | .builtin name => IsName name
  | .iri i => i.IsPlain

theorem Callee.render_append_inj {c d : Callee} (hc : c.IsClean) (hd : d.IsClean)
    (h : c.render.toList ++ '(' :: r = d.render.toList ++ '(' :: s) : c = d ∧ r = s := by
  have hparen : ∀ rest : List Char, Delimits ('(' :: rest) := fun _ => delimits_cons (by decide)
  have hform : ∀ {name : String} {i : Iri} {r s : List Char}, IsName name →
      name.toList ++ r ≠ i.render.toList ++ s := by
    intro name i r s hname h
    obtain ⟨c, cs, hcs, hc⟩ := hname.exists_cons
    rw [hcs, Iri.toList_render] at h
    rw [(List.cons.inj h).1] at hc
    exact absurd hc (by decide)
  cases c with
  | builtin name =>
    cases d with
    | builtin name' =>
      obtain ⟨rfl, hrest⟩ := name_append_inj hc hd (hparen r) (hparen s) h
      exact ⟨rfl, (List.cons.inj hrest).2⟩
    | iri j => exact absurd h (hform hc)
  | iri i =>
    cases d with
    | builtin name' => exact absurd h.symm (hform hd)
    | iri j =>
      obtain ⟨rfl, hrest⟩ := Iri.render_append_inj hc hd h
      exact ⟨rfl, (List.cons.inj hrest).2⟩

/-- A constant ends before other than a parenthesis, as far as names and numbers go. -/
theorem Term.exists_bare_prefix {t : Term} (ht : t.IsClean) (hr : Delimits r)
    (hparen : ∀ rest, r ≠ '(' :: rest) :
    ∃ v rest, t.render.toList ++ r = v ++ rest ∧ (∀ c ∈ v, Literal.isBareChar c = true) ∧
      (∀ c ∈ rest.head?, Literal.isBareChar c = false) ∧ ∀ x, rest ≠ '(' :: x := by
  have hother : ∀ {v : List Char} {c : Char} {cs : List Char}, Literal.isBareChar c = false →
      c ≠ '(' → (∀ c ∈ v, Literal.isBareChar c = true) →
      ∃ v' rest, v ++ c :: cs = v' ++ rest ∧ (∀ c ∈ v', Literal.isBareChar c = true) ∧
        (∀ c ∈ rest.head?, Literal.isBareChar c = false) ∧ ∀ x, rest ≠ '(' :: x := by
    intro v c cs hc hne hv
    refine ⟨v, c :: cs, rfl, hv, ?_, ?_⟩
    · rintro _ ⟨⟩
      exact hc
    · rintro x ⟨⟩
      exact hne rfl
  cases t with
  | bound name value => cases ht
  | iri i =>
    rw [render, Iri.toList_render]
    exact hother (by decide) (by decide) (List.forall_mem_nil _)
  | free name =>
    rw [render, String.toList_append]
    exact hother (by decide) (by decide) (List.forall_mem_nil _)
  | blank n =>
    rw [render, BlankNode.render, String.toList_append]
    exact hother (v := ['_']) (by decide) (by decide) (List.forall_mem_singleton.mpr (by decide))
  | literal l =>
    rw [render, Literal.render]
    split
    · rename_i hbare
      exact ⟨_, _, rfl, (Literal.isBareChar_of_isBare hbare).2, hr.head (by decide), hparen⟩
    · rw [String.toList_append, Literal.toList_quotedForm]
      exact hother (by decide) (by decide) (List.forall_mem_nil _)

/-- A call does not start like a constant that ends before other than a parenthesis. -/
theorem Term.render_append_ne_call {t : Term} {c : Callee} (ht : t.IsClean) (hc : c.IsClean)
    (hr : Delimits r) (hparen : ∀ rest, r ≠ '(' :: rest) :
    t.render.toList ++ r ≠ c.render.toList ++ '(' :: s := by
  intro h
  cases c with
  | iri i =>
    cases t with
    | iri j => exact hparen _ (Iri.render_append_inj ht hc h).2
    | _ =>
      obtain ⟨c, cs, hcs, hlead, -⟩ := exists_lead ht
      have hiri : (Term.iri i).Leads c := by
        rw [hcs, Callee.render, Iri.toList_render] at h
        exact (List.cons.inj h).1
      cases hlead.ctorIdx_eq hiri
  | builtin name =>
    -- the name goes on until the parenthesis, a constant does not
    obtain ⟨v, rest, htext, hv, hrest, hne⟩ := exists_bare_prefix ht hr hparen
    rw [htext] at h
    have hname : ∀ c ∈ name.toList, Literal.isBareChar c = true := fun c hmem =>
      Literal.isBareChar_of_isNameChar (hc.2 c hmem)
    exact hne _ (span_append_inj hv hname hrest ((delimits_cons (by decide)).head (by decide)) h).2

theorem UnaryOp.exists_symbol (op : UnaryOp) : ∃ c ∈ ['!', '-', '+'], op.symbol.toList = [c] := by
  cases op with
  | not => exact ⟨'!', by decide, rfl⟩
  | neg => exact ⟨'-', by decide, rfl⟩
  | plus => exact ⟨'+', by decide, rfl⟩

theorem UnaryOp.symbol_append_inj {o o' : UnaryOp}
    (h : o.symbol.toList ++ r = o'.symbol.toList ++ s) : o = o' ∧ r = s := by
  have hop : o = o' := by
    cases o <;> cases o' <;> first | rfl | exact absurd (List.cons.inj h).1 (by decide)
  subst hop
  exact ⟨rfl, List.append_cancel_left h⟩

/-! ## What stands behind an operand -/

/-- What stands between an operand and what it is combined with: an operator, `IN` or `NOT IN`. -/
inductive Connective where
  | operator (op : BinaryOp)
  | membership (negated : Bool)
deriving DecidableEq

namespace Connective

/-- How tightly the operator binds. -/
def level : Connective → Nat
  | .operator op => op.level
  | .membership _ => 3

/-- The first word. -/
def word : Connective → String
  | .operator op => op.symbol
  | .membership true => "NOT"
  | .membership false => "IN"

/-- The text from the space before the first word. Candidates are in parentheses. -/
def text : Connective → List Char
  | .operator op => ' ' :: (op.symbol.toList ++ [' '])
  | .membership negated => membershipText negated ++ ['(']

variable {c d : Connective}

theorem level_lt_six (c : Connective) : c.level < 6 := by
  cases c with
  | operator op => exact Nat.lt_succ_of_le op.level_mem.2
  | membership negated => exact (by decide : 3 < 6)

theorem word_injective (h : c.word = d.word) : c = d := by
  cases c with
  | operator op =>
    cases d with
    | operator op' =>
      have hop : ∀ o o' : BinaryOp, o.symbol = o'.symbol → o = o' := by decide
      exact congrArg operator (hop op op' h)
    | membership negated => cases op <;> cases negated <;> exact absurd h (by decide)
  | membership negated =>
    cases d with
    | operator op => cases op <;> cases negated <;> exact absurd h (by decide)
    | membership negated' =>
      cases negated <;> cases negated' <;> first | rfl | exact absurd h (by decide)

theorem text_eq_word_append (c : Connective) :
    ∃ rest, c.text = ' ' :: (c.word.toList ++ ' ' :: rest) ∧ ' ' ∉ c.word.toList := by
  cases c with
  | operator op => exact ⟨[], rfl, by cases op <;> decide⟩
  | membership negated =>
    cases negated with
    | false => exact ⟨['('], rfl, by decide⟩
    | true => exact ⟨"IN (".toList, rfl, by decide⟩

/-- A word ends at the first space. -/
theorem word_append_inj {v w : String} (hv : ' ' ∉ v.toList) (hw : ' ' ∉ w.toList)
    (h : v.toList ++ ' ' :: r = w.toList ++ ' ' :: s) : v = w := by
  have hspace : ∀ rest : List Char, ∀ a ∈ (' ' :: rest).head?, (a != ' ') = false := by
    rintro rest a ⟨⟩
    rfl
  have hother : ∀ {cs : List Char}, ' ' ∉ cs → ∀ a ∈ cs, (a != ' ') = true := by
    intro cs hcs a ha
    exact bne_iff_ne.mpr (ne_of_mem_of_not_mem ha hcs)
  exact String.toList_inj.mp (span_append_inj (hother hv) (hother hw) (hspace r) (hspace s) h).1

theorem text_append_inj (h : c.text ++ r = d.text ++ s) : c = d ∧ r = s := by
  obtain ⟨x, hx, hc⟩ := c.text_eq_word_append
  obtain ⟨y, hy, hd⟩ := d.text_eq_word_append
  have hword : c.word = d.word := by
    rw [hx, hy, List.cons_append, List.cons_append, List.append_assoc, List.append_assoc] at h
    exact word_append_inj hc hd (List.cons.inj h).2
  obtain rfl := word_injective hword
  exact ⟨rfl, List.append_cancel_left h⟩

end Connective

namespace Expression

/-- The text as an operand of an operator of this level, in parentheses if they are needed. -/
def operandText (k : Nat) (e : Expression) : List Char :=
  (parenthesize (e.level < k) e.render).toList

theorem operandText_of_lt {k : Nat} {e : Expression} (h : e.level < k) :
    operandText k e = '(' :: (e.render.toList ++ [')']) := by
  simp [operandText, parenthesize, h]

theorem operandText_of_le {k : Nat} {e : Expression} (h : k ≤ e.level) :
    operandText k e = e.render.toList := by
  simp [operandText, parenthesize, Nat.not_lt.mpr h]

theorem operandText_call (c : Callee) (es : List Expression) :
    operandText 6 (call c es) = c.render.toList ++ '(' :: ((renderAll es).toList ++ [')']) := by
  rw [operandText_of_le (Nat.le_succ 6), toList_render_call]

theorem eq_unary_of_level {e : Expression} (h : e.level = 6) : ∃ op e', e = unary op e' := by
  cases e with
  | unary op e => exact ⟨op, e, rfl⟩
  | binary op l r => exact absurd h (Nat.ne_of_lt (Nat.lt_succ_of_le op.level_mem.2))
  | _ => cases h

theorem eq_term_or_call_of_level {e : Expression} (h : e.level = 7) :
    (∃ t, e = term t) ∨ ∃ c es, e = call c es := by
  cases e with
  | term t => exact .inl ⟨t, rfl⟩
  | call c es => exact .inr ⟨c, es, rfl⟩
  | binary op l r => exact absurd h (Nat.ne_of_lt (Nat.lt_of_le_of_lt op.level_mem.2 (by decide)))
  | _ => cases h

/-- What stands behind an operand: an operator with what it is applied to, or candidates. -/
inductive Tail where
  | operand (op : BinaryOp) (right : Expression)
  | candidates (negated : Bool) (es : List Expression)

namespace Tail

def connective : Tail → Connective
  | .operand op _ => .operator op
  | .candidates negated _ => .membership negated

/-- The text behind the connective. -/
def rest : Tail → List Char
  | .operand op e => operandText (op.level + 1) e
  | .candidates _ es => (renderAll es).toList ++ [')']

def text (t : Tail) : List Char := t.connective.text ++ t.rest

/-- The expression of an operand and what stands behind it. -/
def attach (e : Expression) : Tail → Expression
  | .operand op right => .binary op e right
  | .candidates negated es => .isIn e es negated

/-- How tightly an expression has to hold together to stand before. -/
def operandLevel : Tail → Nat
  | .operand op _ => op.level
  | .candidates _ _ => 4

def level (t : Tail) : Nat := t.connective.level

variable {e : Expression} {t : Tail}

theorem level_attach (e : Expression) (t : Tail) : (attach e t).level = t.level := by
  cases t <;> rfl

theorem level_le_operandLevel (t : Tail) : t.level ≤ t.operandLevel := by
  cases t with
  | operand op e => exact Nat.le_refl _
  | candidates negated es => exact Nat.le_succ 3

theorem operandLevel_le_six (t : Tail) : t.operandLevel ≤ 6 := by
  cases t with
  | operand op e => exact Nat.le_succ_of_le op.level_mem.2
  | candidates negated es => exact Nat.le_add_right 4 2

theorem toList_render_attach (e : Expression) (t : Tail) :
    (attach e t).render.toList = operandText t.operandLevel e ++ t.text := by
  cases t with
  | operand op right =>
    have hlevel : decide (right.level ≤ op.level) = decide (right.level < op.level + 1) :=
      decide_eq_decide.mpr Nat.lt_succ_iff.symm
    rw [attach, toList_render_binary, hlevel]
    simp only [text, connective, Connective.text, rest, operandText, operandLevel, List.cons_append,
      List.append_assoc, List.nil_append]
    rfl
  | candidates negated es =>
    have hlevel : decide (e.level ≤ 3) = decide (e.level < 4) :=
      decide_eq_decide.mpr Nat.lt_succ_iff.symm
    rw [attach, toList_render_isIn, hlevel]
    simp only [text, connective, Connective.text, rest, operandText, operandLevel, List.cons_append,
      List.append_assoc, List.nil_append]
    rfl

end Tail

/-! ## An expression as a first operand and what stands behind it -/

/-- The text of an operand taken apart: a first operand, and what stands behind it, from tight to
loose. -/
structure Spine (k : Nat) (e first : Expression) (tails : List Tail) : Prop where
  attach : tails.foldl Tail.attach first = e
  text : operandText k e = operandText 6 first ++ tails.flatMap Tail.text
  sorted : tails.Pairwise fun t u => u.level ≤ t.level
  level : ∀ t ∈ tails, k ≤ t.level

namespace Spine

variable {k : Nat} {e first : Expression} {tails : List Tail}

/-- An operand in parentheses, and one that is no operator between two operands, is its own first
operand. -/
theorem self (hk : k ≤ 6) (h : e.level < k ∨ 6 ≤ e.level) : Spine k e e [] where
  attach := rfl
  text := by
    rw [List.flatMap_nil, List.append_nil]
    rcases h with h | h
    · rw [operandText_of_lt h, operandText_of_lt (Nat.lt_of_lt_of_le h hk)]
    · rw [operandText_of_le (Nat.le_trans hk h), operandText_of_le h]
  sorted := .nil
  level := nofun

theorem concat {t : Tail} (h : Spine t.operandLevel e first tails) (hk : k ≤ t.level) :
    Spine k (t.attach e) first (tails ++ [t]) where
  attach := by
    rw [List.foldl_append, h.attach]
    rfl
  text := by
    rw [operandText_of_le (by rwa [t.level_attach e]), t.toList_render_attach, h.text,
      List.flatMap_append, List.flatMap_singleton, List.append_assoc]
  sorted := by
    -- what is in the operand binds at least as tightly as the operator behind it
    refine List.pairwise_append.mpr ⟨h.sorted, List.pairwise_singleton _ _, ?_⟩
    intro u hu v hv
    obtain rfl := List.mem_singleton.mp hv
    exact Nat.le_trans v.level_le_operandLevel (h.level u hu)
  level := by
    refine List.forall_mem_append.mpr ⟨fun u hu => ?_, List.forall_mem_singleton.mpr hk⟩
    exact Nat.le_trans hk (Nat.le_trans t.level_le_operandLevel (h.level u hu))

end Spine

theorem exists_spine_attach {k : Nat} {e : Expression} (t : Tail) (hk : k ≤ 6)
    (h : ∃ first tails, Spine t.operandLevel e first tails) :
    ∃ first tails, Spine k (t.attach e) first tails := by
  by_cases hlevel : k ≤ t.level
  · obtain ⟨first, tails, h⟩ := h
    exact ⟨first, tails ++ [t], h.concat hlevel⟩
  · exact ⟨_, [], .self hk (.inl (by rw [t.level_attach e]; omega))⟩

theorem exists_spine : ∀ (e : Expression) {k : Nat}, k ≤ 6 → ∃ first tails, Spine k e first tails
  | .binary op l r, _, hk =>
    exists_spine_attach (.operand op r) hk (exists_spine l (Tail.operandLevel_le_six _))
  | .isIn e es negated, _, hk =>
    exists_spine_attach (.candidates negated es) hk (exists_spine e (Tail.operandLevel_le_six _))
  | .term t, _, hk => ⟨_, [], .self hk (.inr (by simp [level]))⟩
  | .unary op e, _, hk => ⟨_, [], .self hk (.inr (by simp [level]))⟩
  | .call c es, _, hk => ⟨_, [], .self hk (.inr (by simp [level]))⟩

/-! ## Clean expressions -/

/-- Whether the expression is made of terms with a property, none of them a number with a sign, and
whether all that is called is clean. -/
def IsMadeOf (P : Term → Prop) (e : Expression) : Prop :=
  e.Everywhere fun
    | .term t => P t ∧ ¬t.IsSigned
    | .call c _ => c.IsClean
    | _ => True

/-- Whether the expression is made of clean terms. -/
def IsClean (e : Expression) : Prop := e.IsMadeOf Term.IsClean

theorem isClean_of_everywhereInAll {es : List Expression}
    (h : EverywhereInAll (fun
      | .term t => t.IsClean ∧ ¬t.IsSigned
      | .call c _ => c.IsClean
      | _ => True) es) : ∀ e ∈ es, e.IsClean :=
  everywhereInAll_iff.mp h

/-- Whether all expressions behind the connective are clean. -/
def Tail.IsClean : Tail → Prop
  | .operand _ e => e.IsClean
  | .candidates _ es => ∀ e ∈ es, e.IsClean

theorem isClean_attach {e : Expression} {t : Tail} :
    (t.attach e).IsClean ↔ e.IsClean ∧ t.IsClean := by
  cases t with
  | operand op right => exact and_iff_right trivial
  | candidates negated es =>
    exact (and_iff_right trivial).trans (and_congr_right fun _ => everywhereInAll_iff)

theorem isClean_foldl_attach {e : Expression} {tails : List Tail} :
    (tails.foldl Tail.attach e).IsClean ↔ e.IsClean ∧ ∀ t ∈ tails, t.IsClean := by
  induction tails generalizing e with
  | nil => simp
  | cons t tails ih => rw [List.foldl_cons, ih, isClean_attach, List.forall_mem_cons, and_assoc]

/-! ## How operands start -/

theorem exists_lead_of_level_eq_seven {e : Expression} (he : e.IsClean) (h : e.level = 7) :
    ∃ c cs, e.render.toList = c :: cs ∧ c ∉ ['(', ')', '!', '-', '+'] := by
  obtain ⟨t, rfl⟩ | ⟨c, es, rfl⟩ := eq_term_or_call_of_level h
  · obtain ⟨c, cs, hcs, hlead, hsign⟩ := Term.exists_lead he.1
    refine ⟨c, cs, hcs, fun hc => ?_⟩
    obtain ⟨hplus, hminus⟩ := hsign he.2
    have hlead := hlead.isLead
    simp only [List.mem_cons, List.not_mem_nil, or_false] at hc
    rcases hc with rfl | rfl | rfl | rfl | rfl
    · exact absurd hlead (by decide)
    · exact absurd hlead (by decide)
    · exact absurd hlead (by decide)
    · exact hminus rfl
    · exact hplus rfl
  · rw [toList_render_call]
    cases c with
    | iri i =>
      rw [Callee.render, Iri.toList_render]
      exact ⟨_, _, rfl, by decide⟩
    | builtin name =>
      have hname : IsName name := he.1
      obtain ⟨c, cs, hcs, hchar⟩ := hname.exists_cons
      rw [Callee.render, hcs]
      refine ⟨c, _, rfl, fun hc => ?_⟩
      simp only [List.mem_cons, List.not_mem_nil, or_false] at hc
      rcases hc with rfl | rfl | rfl | rfl | rfl <;> exact absurd hchar (by decide)

/-- The first character of an operand tells whether it is in parentheses, starts with an operator, or
is neither. -/
theorem exists_front {e : Expression} (he : e.IsClean) :
    ∃ c cs, operandText 6 e = c :: cs ∧ c ≠ ')' ∧ (e.level < 6 ↔ c = '(') ∧
      (e.level = 6 ↔ c ∈ ['!', '-', '+']) := by
  have hlevel := e.level_mem
  rcases Nat.lt_trichotomy e.level 6 with h | h | h
  · refine ⟨'(', _, operandText_of_lt h, by decide, iff_of_true h rfl, ?_⟩
    exact iff_of_false (Nat.ne_of_lt h) (by decide)
  · obtain ⟨op, e', rfl⟩ := eq_unary_of_level h
    obtain ⟨c, hc, hsymbol⟩ := op.exists_symbol
    have hne : c ≠ ')' ∧ c ≠ '(' := by
      constructor <;>
      · rintro rfl
        exact absurd hc (by decide)
    rw [operandText_of_le (Nat.le_refl 6), toList_render_unary, hsymbol]
    exact ⟨c, _, rfl, hne.1, iff_of_false (Nat.lt_irrefl 6) hne.2, iff_of_true rfl hc⟩
  · rw [operandText_of_le (Nat.le_of_lt h)]
    obtain ⟨c, cs, hcs, hc⟩ := exists_lead_of_level_eq_seven he (by omega)
    simp only [List.mem_cons, List.not_mem_nil, or_false, not_or] at hc
    obtain ⟨hopen, hclose, hnot, hneg, hplus⟩ := hc
    refine ⟨c, cs, hcs, hclose, iff_of_false (by omega) hopen, iff_of_false (by omega) ?_⟩
    simp [hnot, hneg, hplus]

theorem level_congr {e e' : Expression} (he : e.IsClean) (he' : e'.IsClean)
    (h : operandText 6 e ++ r = operandText 6 e' ++ s) :
    (e.level < 6 ↔ e'.level < 6) ∧ (e.level = 6 ↔ e'.level = 6) := by
  obtain ⟨c, cs, hcs, -, hopen, hunary⟩ := exists_front he
  obtain ⟨d, ds, hds, -, hopen', hunary'⟩ := exists_front he'
  rw [hcs, hds] at h
  obtain rfl := (List.cons.inj h).1
  exact ⟨hopen.trans hopen'.symm, hunary.trans hunary'.symm⟩

theorem level_eq_seven {e e' : Expression} (he : e.IsClean) (he' : e'.IsClean) (hlevel : e.level = 7)
    (h : operandText 6 e ++ r = operandText 6 e' ++ s) : e'.level = 7 := by
  obtain ⟨hopen, hunary⟩ := level_congr he he' h
  have hmem := e'.level_mem
  omega

/-- No expression starts with the end of a list. -/
theorem render_append_ne_close {e : Expression} (he : e.IsClean) :
    e.render.toList ++ r ≠ ')' :: s := by
  intro h
  obtain ⟨first, tails, hspine⟩ := exists_spine e (Nat.zero_le 6)
  have hfirst : first.IsClean := by
    rw [← hspine.attach] at he
    exact (isClean_foldl_attach.mp he).1
  obtain ⟨c, cs, hcs, hclose, -⟩ := exists_front hfirst
  rw [← operandText_of_le (Nat.zero_le e.level), hspine.text, hcs] at h
  exact hclose (List.cons.inj h).1

/-! ## Where operands end -/

/-- Whether an operand of an operator of this level ends before this text: what follows is not an
operator that binds as tightly. -/
structure Closes (k : Nat) (cs : List Char) : Prop where
  head : ∀ c ∈ cs.head?, c ∈ [' ', ')', ',']
  level : ∀ (c : Connective) (rest : List Char), cs = c.text ++ rest → c.level < k

namespace Closes

variable {k m : Nat}

theorem mono (h : Closes k r) (hkm : k ≤ m) : Closes m r where
  head := h.head
  level c rest hc := Nat.lt_of_lt_of_le (h.level c rest hc) hkm

theorem delimits (h : Closes k r) : Delimits r := fun c hc => by
  have hmem := h.head c hc
  simp only [List.mem_cons, List.not_mem_nil, or_false] at hmem
  rcases hmem with rfl | rfl | rfl <;> decide

theorem ne_paren (h : Closes k r) (rest : List Char) : r ≠ '(' :: rest := by
  rintro rfl
  exact absurd (h.head '(' rfl) (by decide)

/-- Nothing is looked at behind the end of a list or of one of its members. -/
theorem cons {c : Char} (h : c ∈ [')', ',']) : Closes k (c :: r) where
  head := by
    rintro d ⟨⟩
    exact List.mem_cons_of_mem ' ' h
  level d rest hd := by
    obtain ⟨x, hx, -⟩ := d.text_eq_word_append
    rw [hx] at hd
    obtain rfl := (List.cons.inj hd).1
    exact absurd h (by decide)

/-- No operator has a name like this word. -/
theorem word {word : String} (hspace : ' ' ∉ word.toList)
    (hword : ∀ c : Connective, c.word ≠ word) : Closes k (' ' :: (word.toList ++ ' ' :: r)) where
  head := by
    rintro d ⟨⟩
    decide
  level d rest hd := by
    obtain ⟨x, hx, hd'⟩ := d.text_eq_word_append
    rw [hx, List.cons_append, List.append_assoc] at hd
    exact absurd (Connective.word_append_inj hspace hd' (List.cons.inj hd).2).symm (hword d)

theorem tail (t : Tail) (h : t.level < k) : Closes k (t.text ++ r) where
  head := by
    obtain ⟨x, hx, -⟩ := t.connective.text_eq_word_append
    rw [Tail.text, hx]
    rintro d ⟨⟩
    decide
  level c rest hc := by
    rw [Tail.text, List.append_assoc] at hc
    obtain ⟨rfl, -⟩ := Connective.text_append_inj hc
    exact h

/-- An operand ends before what stands behind it, if that binds less tightly. -/
theorem flatMap_tails {tails : List Tail} (h : ∀ t ∈ tails, t.level < m) (hkm : k ≤ m)
    (hr : Closes k r) : Closes m (tails.flatMap Tail.text ++ r) := by
  cases tails with
  | nil => exact hr.mono hkm
  | cons t tails =>
    rw [List.flatMap_cons, List.append_assoc]
    exact tail t (h t List.mem_cons_self)

end Closes

end Expression

end GraphPattern
