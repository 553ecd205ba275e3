import GraphPattern.Proofs.Layout.Operands

/-!
# What the text of an expression tells

A text that starts with an expression tells the expression, and where it ends, if no operator follows
(`Expression.render_append_inj`). Each operand is told by induction on it, as an operand of operators of
every level, and what stands behind it one after the other (`Expression.tails_append_inj`).
-/

namespace GraphPattern

open Shorthand

variable {r s : List Char}

namespace Expression

/-! ## What is told by what is written -/

/-- Whether a text that starts with the expression, as an operand of an operator of this level, tells
the expression and the rest. -/
def IsToldAt (k : Nat) (e : Expression) : Prop :=
  ∀ (e' : Expression) (r s : List Char), e'.IsClean → Closes k r → Closes k s →
    operandText k e ++ r = operandText k e' ++ s → e = e' ∧ r = s

/-- Whether a text that starts with what stands behind an operand tells it and the rest. -/
def Tail.IsTold (t : Tail) : Prop :=
  ∀ (t' : Tail) (r s : List Char), t'.IsClean → Closes (t.level + 1) r → Closes (t'.level + 1) s →
    t.text ++ r = t'.text ++ s → t = t' ∧ r = s

/-- Lists of what stands behind operands are told: an operator that binds too loosely to belong to
one of the operands ends it. -/
theorem tails_append_inj {k : Nat} {tails tails' : List Tail} (htold : ∀ t ∈ tails, t.IsTold)
    (hsorted : tails.Pairwise fun t u => u.level ≤ t.level) (hlevel : ∀ t ∈ tails, k ≤ t.level)
    (hclean : ∀ t ∈ tails', t.IsClean)
    (hsorted' : tails'.Pairwise fun t u => u.level ≤ t.level) (hlevel' : ∀ t ∈ tails', k ≤ t.level)
    (hr : Closes k r) (hs : Closes k s)
    (h : tails.flatMap Tail.text ++ r = tails'.flatMap Tail.text ++ s) : tails = tails' ∧ r = s := by
  -- what closes an operand is no operator of its level
  have hloose : ∀ {cs x : List Char} {t : Tail}, Closes k cs → k ≤ t.level → cs ≠ t.text ++ x := by
    intro cs x t hcs ht hx
    rw [Tail.text, List.append_assoc] at hx
    exact absurd (hcs.level _ _ hx) (Nat.not_lt.mpr ht)
  induction tails generalizing tails' with
  | nil =>
    cases tails' with
    | nil => exact ⟨rfl, h⟩
    | cons t' tails' =>
      rw [List.flatMap_cons, List.append_assoc] at h
      exact absurd h (hloose hr (hlevel' t' List.mem_cons_self))
  | cons t tails ih =>
    cases tails' with
    | nil =>
      rw [List.flatMap_cons, List.append_assoc] at h
      exact absurd h.symm (hloose hs (hlevel t List.mem_cons_self))
    | cons t' tails' =>
      rw [List.forall_mem_cons] at htold hlevel hclean hlevel'
      rw [List.pairwise_cons] at hsorted hsorted'
      rw [List.flatMap_cons, List.flatMap_cons, List.append_assoc, List.append_assoc] at h
      -- an operand ends before the next operator, because that binds no more tightly than its own
      have hcloses : Closes (t.level + 1) (tails.flatMap Tail.text ++ r) :=
        .flatMap_tails (fun u hu => Nat.lt_succ_of_le (hsorted.1 u hu))
          (Nat.le_succ_of_le hlevel.1) hr
      have hcloses' : Closes (t'.level + 1) (tails'.flatMap Tail.text ++ s) :=
        .flatMap_tails (fun u hu => Nat.lt_succ_of_le (hsorted'.1 u hu))
          (Nat.le_succ_of_le hlevel'.1) hs
      obtain ⟨rfl, hrest⟩ := htold.1 t' _ _ hclean.1 hcloses hcloses' h
      obtain ⟨rfl, hend⟩ := ih htold.2 hsorted.2 hlevel.2 hclean.2 hsorted'.2 hlevel'.2 hrest
      exact ⟨rfl, hend⟩

/-- An expression is told if its first operand is, and what stands behind it. -/
theorem Spine.isToldAt {k : Nat} {e first : Expression} {tails : List Tail}
    (hspine : Spine k e first tails) (hk : k ≤ 6) (hfirst : first.IsToldAt 6)
    (htails : ∀ t ∈ tails, t.IsTold) : e.IsToldAt k := by
  intro e' r s he' hr hs h
  obtain ⟨first', tails', hspine'⟩ := exists_spine e' hk
  rw [← hspine'.attach, isClean_foldl_attach] at he'
  rw [hspine.text, hspine'.text, List.append_assoc, List.append_assoc] at h
  -- no operator binds as tightly as a first operand
  have hcloses : ∀ {tails : List Tail} {x : List Char}, Closes k x →
      Closes 6 (tails.flatMap Tail.text ++ x) := fun hx =>
    .flatMap_tails (fun t _ => t.connective.level_lt_six) hk hx
  obtain ⟨rfl, hrest⟩ := hfirst first' _ _ he'.1 (hcloses hr) (hcloses hs) h
  obtain ⟨rfl, hend⟩ := tails_append_inj htails hspine.sorted hspine.level he'.2 hspine'.sorted
    hspine'.level hr hs hrest
  exact ⟨hspine.attach.symm.trans hspine'.attach, hend⟩

/-- Whether the expression is told as an operand of any operator, by what it is made of. -/
def IsTold (e : Expression) : Prop :=
  ∀ k ≤ 6, ∃ first tails, Spine k e first tails ∧ first.IsToldAt 6 ∧ ∀ t ∈ tails, t.IsTold

theorem IsTold.isToldAt {k : Nat} {e : Expression} (h : e.IsTold) (hk : k ≤ 6) : e.IsToldAt k := by
  obtain ⟨first, tails, hspine, hfirst, htails⟩ := h k hk
  exact hspine.isToldAt hk hfirst htails

theorem isTold_of_level {e : Expression} (h : e.IsToldAt 6) (hlevel : 6 ≤ e.level) : e.IsTold :=
  fun _ hk => ⟨e, [], .self hk (.inr hlevel), h, nofun⟩

/-- Parentheses are seen, and what is between them is told where it stands for itself. -/
theorem IsToldAt.parenthesized {e : Expression} (h : e.IsToldAt 0) (he : e.IsClean)
    (hlevel : e.level < 6) : e.IsToldAt 6 := by
  intro e' r s he' hr hs htext
  have hlevel' : e'.level < 6 := (level_congr he he' htext).1.mp hlevel
  rw [operandText_of_lt hlevel, operandText_of_lt hlevel', List.cons_append, List.cons_append,
    List.append_assoc, List.append_assoc] at htext
  obtain ⟨rfl, hrest⟩ := h e' (')' :: r) (')' :: s) he' (.cons (by decide)) (.cons (by decide)) (by
    rw [operandText_of_le (Nat.zero_le _), operandText_of_le (Nat.zero_le _)]
    exact (List.cons.inj htext).2)
  exact ⟨rfl, (List.cons.inj hrest).2⟩

theorem IsTold.attach {e : Expression} {t : Tail} (he : e.IsTold) (ht : t.IsTold)
    (hclean : (t.attach e).IsClean) : (t.attach e).IsTold := by
  obtain ⟨first, tails, hspine, hfirst, htails⟩ := he t.operandLevel t.operandLevel_le_six
  have hconcat : ∀ u ∈ tails ++ [t], u.IsTold :=
    List.forall_mem_append.mpr ⟨htails, List.forall_mem_singleton.mpr ht⟩
  intro k hk
  by_cases hlevel : k ≤ t.level
  · exact ⟨first, tails ++ [t], hspine.concat hlevel, hfirst, hconcat⟩
  · -- in parentheses, the whole is its own first operand, and is told where it stands for itself
    have hzero := (hspine.concat (Nat.zero_le t.level)).isToldAt (Nat.zero_le 6) hfirst hconcat
    have hsix : (t.attach e).level < 6 := by
      rw [t.level_attach e]
      exact t.connective.level_lt_six
    refine ⟨t.attach e, [], .self hk (.inl ?_), hzero.parenthesized hclean hsix, nofun⟩
    rw [t.level_attach e]
    exact Nat.lt_of_not_le hlevel

/-! ## Lists of expressions -/

theorem toList_renderAll_eq_append (e : Expression) (es : List Expression) :
    (renderAll (e :: es)).toList =
      e.render.toList ++ es.flatMap fun e => ',' :: ' ' :: e.render.toList := by
  induction es generalizing e with
  | nil => rw [renderAll, List.flatMap_nil, List.append_nil]
  | cons e' es ih =>
    rw [toList_renderAll_cons, ih, List.flatMap_cons, List.cons_append, List.cons_append]

theorem renderAll_append_inj {es es' : List Expression} (htold : ∀ e ∈ es, e.IsToldAt 0)
    (hes : ∀ e ∈ es, e.IsClean) (hes' : ∀ e ∈ es', e.IsClean)
    (h : (renderAll es).toList ++ ')' :: r = (renderAll es').toList ++ ')' :: s) :
    es = es' ∧ r = s := by
  have hmember : ∀ {e e' : Expression} {x y : List Char}, e.IsToldAt 0 → e'.IsClean →
      Closes 0 x → Closes 0 y → e.render.toList ++ x = e'.render.toList ++ y → e = e' ∧ x = y := by
    intro e e' x y he he' hx hy h
    exact he e' x y he' hx hy (by
      rwa [operandText_of_le (Nat.zero_le _), operandText_of_le (Nat.zero_le _)])
  -- behind a member there is a comma or the end of the list
  have hfollow : ∀ {es : List Expression} {x : List Char},
      Closes 0 (es.flatMap (fun e => ',' :: ' ' :: e.render.toList) ++ ')' :: x) := by
    intro es x
    cases es with
    | nil => exact .cons (by decide)
    | cons e es => exact .cons (by decide)
  cases es with
  | nil =>
    cases es' with
    | nil => exact ⟨rfl, (List.cons.inj h).2⟩
    | cons e' es' =>
      rw [toList_renderAll_eq_append, List.append_assoc] at h
      exact absurd h.symm (render_append_ne_close (hes' e' List.mem_cons_self))
  | cons e es =>
    rw [List.forall_mem_cons] at htold hes
    rw [toList_renderAll_eq_append, List.append_assoc] at h
    cases es' with
    | nil => exact absurd h (render_append_ne_close hes.1)
    | cons e' es' =>
      rw [List.forall_mem_cons] at hes'
      rw [toList_renderAll_eq_append, List.append_assoc] at h
      obtain ⟨rfl, hrest⟩ := hmember htold.1 hes'.1 hfollow hfollow h
      have hend : ∀ x : List Char, Closes 0 (')' :: x) ∧ ∀ (e : Expression) (y : List Char),
          e.IsClean → ')' :: x ≠ (',' :: ' ' :: e.render.toList) ++ y :=
        fun x => ⟨.cons (by decide), nofun⟩
      obtain ⟨rfl, hclose⟩ := flatMap_append_inj (Q := Closes 0) hes.2 hes'.2
        (fun _ _ _ => .cons (by decide))
        (fun a ha b hb x y hx hy hab => hmember (htold.2 a ha) hb hx hy
          (List.cons.inj (List.cons.inj hab).2).2) (hend r) (hend s) hrest
      exact ⟨rfl, (List.cons.inj hclose).2⟩

/-! ## Each form -/

theorem Tail.isTold_operand (op : BinaryOp) {e : Expression} (he : e.IsTold) :
    (Tail.operand op e).IsTold := by
  intro t' r s ht' hr hs h
  rw [Tail.text, Tail.text, List.append_assoc, List.append_assoc] at h
  obtain ⟨hconnective, hrest⟩ := Connective.text_append_inj h
  cases t' with
  | candidates negated es => cases hconnective
  | operand op' e' =>
    cases hconnective
    obtain ⟨rfl, hend⟩ :=
      he.isToldAt (Nat.succ_le_succ op.level_mem.2) e' r s ht' hr hs hrest
    exact ⟨rfl, hend⟩

theorem Tail.isTold_candidates (negated : Bool) {es : List Expression}
    (htold : ∀ e ∈ es, e.IsToldAt 0) (hes : ∀ e ∈ es, e.IsClean) :
    (Tail.candidates negated es).IsTold := by
  intro t' r s ht' hr hs h
  rw [Tail.text, Tail.text, List.append_assoc, List.append_assoc] at h
  obtain ⟨hconnective, hrest⟩ := Connective.text_append_inj h
  cases t' with
  | operand op e' => cases hconnective
  | candidates negated' es' =>
    cases hconnective
    rw [Tail.rest, Tail.rest, List.append_assoc, List.append_assoc] at hrest
    obtain ⟨rfl, hend⟩ := renderAll_append_inj htold hes ht' hrest
    exact ⟨rfl, hend⟩

theorem isToldAt_term {t : Term} (hclean : (Expression.term t).IsClean) :
    (Expression.term t).IsToldAt 6 := by
  intro e' r s he' hr hs h
  obtain ⟨u, rfl⟩ | ⟨c, es, rfl⟩ := eq_term_or_call_of_level (level_eq_seven hclean he' rfl h)
  · obtain ⟨rfl, hrest⟩ := Term.render_append_inj hclean.1 he'.1 hr.delimits hs.delimits h
    exact ⟨rfl, hrest⟩
  · rw [operandText_call, List.append_assoc] at h
    exact absurd h (Term.render_append_ne_call hclean.1 he'.1 hr.delimits hr.ne_paren)

theorem isToldAt_call {c : Callee} {es : List Expression} (hclean : (call c es).IsClean)
    (htold : ∀ e ∈ es, e.IsToldAt 0) : (call c es).IsToldAt 6 := by
  intro e' r s he' hr hs h
  obtain ⟨t, rfl⟩ | ⟨c', es', rfl⟩ := eq_term_or_call_of_level (level_eq_seven hclean he' rfl h)
  · rw [operandText_call, List.append_assoc] at h
    exact absurd h.symm (Term.render_append_ne_call he'.1 hclean.1 hs.delimits hs.ne_paren)
  · simp only [operandText_call, List.cons_append, List.append_assoc, List.nil_append] at h
    obtain ⟨rfl, hrest⟩ := Callee.render_append_inj hclean.1 he'.1 h
    obtain ⟨rfl, hend⟩ := renderAll_append_inj htold (isClean_of_everywhereInAll hclean.2)
      (isClean_of_everywhereInAll he'.2) hrest
    exact ⟨rfl, hend⟩

theorem isToldAt_unary {op : UnaryOp} {e : Expression} (hclean : (unary op e).IsClean)
    (he : e.IsToldAt 6) : (unary op e).IsToldAt 6 := by
  intro e' r s he' hr hs h
  obtain ⟨op', e', rfl⟩ := eq_unary_of_level ((level_congr hclean he' h).2.mp rfl)
  rw [operandText_of_le (Nat.le_refl 6), operandText_of_le (Nat.le_refl 6), toList_render_unary,
    toList_render_unary, List.append_assoc, List.append_assoc] at h
  obtain ⟨rfl, hrest⟩ := UnaryOp.symbol_append_inj h
  obtain ⟨rfl, hend⟩ := he e' r s he'.2 hr hs hrest
  exact ⟨rfl, hend⟩

mutual

theorem isTold : ∀ e : Expression, e.IsClean → e.IsTold
  | .term _, h => isTold_of_level (isToldAt_term h) (Nat.le_succ 6)
  | .binary op l r, h =>
    (isTold l h.2.1).attach (Tail.isTold_operand op (isTold r h.2.2)) h
  | .unary _ e, h =>
    isTold_of_level (isToldAt_unary h ((isTold e h.2).isToldAt (Nat.le_refl 6))) (Nat.le_refl 6)
  | .call _ es, h => isTold_of_level (isToldAt_call h (isToldAt_all es h.2)) (Nat.le_succ 6)
  | .isIn e es negated, h =>
    (isTold e h.2.1).attach (Tail.isTold_candidates negated (isToldAt_all es h.2.2)
      (isClean_of_everywhereInAll h.2.2)) h

theorem isToldAt_all : ∀ es : List Expression,
    EverywhereInAll (fun
      | .term t => t.IsClean ∧ ¬t.IsSigned
      | .call c _ => c.IsClean
      | _ => True) es → ∀ e ∈ es, e.IsToldAt 0
  | [], _ => nofun
  | e :: es, h =>
    List.forall_mem_cons.mpr ⟨(isTold e h.1).isToldAt (Nat.zero_le 6), isToldAt_all es h.2⟩

end

/-- A text that starts with an expression tells the expression and the rest, if no operator follows. -/
theorem render_append_inj {e e' : Expression} (he : e.IsClean) (he' : e'.IsClean)
    (hr : Closes 0 r) (hs : Closes 0 s) (h : e.render.toList ++ r = e'.render.toList ++ s) :
    e = e' ∧ r = s :=
  (isTold e he).isToldAt (Nat.zero_le 6) e' r s he' hr hs (by
    rwa [operandText_of_le (Nat.zero_le _), operandText_of_le (Nat.zero_le _)])

end Expression

end GraphPattern
