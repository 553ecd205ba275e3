import GraphPattern.Proofs.Shorthand.Readable

/-!
# Comparisons that follow one another

The tokens of an expression in which the left operand of a comparison is a comparison or an `IN` are
not read whole. The reader of comparisons stops before the second operator; no reader of a looser level
goes on with it, and neither a parenthesis nor an argument ends there (`Jams`). So the expressions
around it are not read either, up to the whole (`readAll_readExpression_of_chained`).
-/

namespace GraphPattern.Shorthand

open Steps Source

/-- Whether a comparison comes next. -/
def Blocks (ts : List Token) : Prop := ∃ op, (nextKind ts).bind TokenKind.comparison? = some op

/-- The reader of a level does not read the tokens whole: it fails, or it stops before a comparison,
which only readers of comparisons and looser ones do. -/
def Jams (r : Reader Expression) (k : Nat) (ks : List TokenKind) : Prop :=
  ∀ ⦃ts rest e rest'⦄, ts.map Token.kind = ks → Stops (k + 1) rest →
    r (ts ++ rest) = .ok (e, rest') → k ≤ 3 ∧ Blocks rest'

variable {s : Source} {nested : Reader Expression} {k : Nat} {ks ls : List TokenKind}
  {e l r : Expression}

/-! ## Before a comparison -/

theorem Blocks.exists_nextKind {ts : List Token} (h : Blocks ts) :
    ∃ kind, nextKind ts = some kind ∧ kind.infixLevel = 3 := by
  obtain ⟨op, hop⟩ := h
  obtain ⟨kind, hkind, hop⟩ := Option.bind_eq_some_iff.mp hop
  exact ⟨kind, hkind, infixLevel_of_operator? (k := 3) hop⟩

theorem Blocks.nextKind_ne {ts : List Token} (h : Blocks ts) {kind : TokenKind}
    (hkind : kind.infixLevel ≠ 3) : nextKind ts ≠ some kind := by
  obtain ⟨kind', hnext, hlevel⟩ := h.exists_nextKind
  rw [hnext]
  rintro ⟨⟩
  exact hkind hlevel

theorem Blocks.bind_operator? {ts : List Token} (h : Blocks ts) (hk : k ≠ 3) :
    (nextKind ts).bind (operator? k) = none := by
  obtain ⟨kind, hnext, hlevel⟩ := h.exists_nextKind
  rw [hnext]
  cases hop : operator? k kind with
  | none => exact hop
  | some op => exact absurd ((infixLevel_of_operator? hop).symm.trans hlevel) hk

/-! ## From one level to another -/

namespace Jams

theorem descend (hpos : 1 ≤ k) (hk : k ≤ 5) (h : Jams (s.readFrom nested (k + 1)) (k + 1) ks) :
    Jams (s.readFrom nested k) k ks := by
  intro ts rest e rest' hts hrest hok
  by_cases hchain : GroupsLeft k
  · rw [readFrom_of_groupsLeft s nested hchain] at hok
    obtain ⟨⟨left, rest₁⟩, hleft, hok⟩ := except_bind_eq_ok.mp hok
    obtain ⟨hle, hblocks⟩ := h hts (hrest.mono (Nat.le_succ _)) hleft
    dsimp only at hok
    rw [readChainFrom_of_none (hblocks.bind_operator? (by omega))] at hok
    cases hok
    exact ⟨by omega, hblocks⟩
  · obtain rfl : k = 3 := by
      unfold GroupsLeft at hchain
      omega
    rw [readFrom_relational] at hok
    obtain ⟨⟨left, rest₁⟩, hleft, _⟩ := except_bind_eq_ok.mp hok
    exact absurd (h hts (hrest.mono (Nat.le_succ _)) hleft).1 (by decide)

theorem loosen {k' : Nat} (h : Jams (s.readFrom nested k') k' ks) (hpos : 1 ≤ k) (hk : k ≤ k')
    (hk' : k' ≤ 6) : Jams (s.readFrom nested k) k ks := by
  induction k' with
  | zero => omega
  | succ k' ih =>
    rcases Nat.lt_or_eq_of_le hk with hlt | rfl
    · exact ih (h.descend (by omega) (by omega)) (by omega) (by omega)
    · exact h

/-- What stands in parentheses has to be read whole. -/
theorem parenthesize (h : Jams nested 1 ks) :
    Jams (s.readFrom nested 6) 6 (.leftParen :: (ks ++ [.rightParen])) := by
  intro _ rest e rest' hall _ hok
  obtain ⟨span, ts, t, rfl, hts, ht⟩ := exists_of_map_eq_parentheses hall
  rw [readFrom_unary, readUnary_eq (by rintro _ ⟨⟩; rfl), List.cons_append, List.append_assoc,
    List.singleton_append] at hok
  obtain ⟨⟨e', rest₁⟩, hread, hok⟩ := except_bind_eq_ok.mp hok
  obtain ⟨_, hclose, _⟩ := except_bind_eq_ok.mp hok
  have hblocks := (h hts ((stops_rightParen ht rest).mono (by decide)) hread).2
  obtain ⟨c, rfl, hc⟩ := exists_of_expect hclose
  exact absurd (congrArg some hc) (hblocks.nextKind_ne (by decide))

/-- An expression as an operand of a level: in parentheses, or not looser than the level. -/
theorem operand {needed : Bool}
    (h : needed = false → Jams (s.readFrom nested (min e.level 6)) (min e.level 6) ks)
    (hnested : needed = true → Jams nested 1 ks) (hlevel : needed = false → k ≤ e.level)
    (hpos : 1 ≤ k) (hk : k ≤ 6) :
    Jams (s.readFrom nested k) k (Expression.parenthesizeTokens needed ks) := by
  cases needed with
  | true => exact (parenthesize (hnested rfl)).loosen hpos hk (Nat.le_refl 6)
  | false => exact (h rfl).loosen hpos (le_min (hlevel rfl) hk) (Nat.min_le_right _ _)

/-! ## Operators -/

/-- The left operand of a chain or of a comparison is not read whole. -/
theorem left {op : BinaryOp} (h : Jams (s.readFrom nested op.level) op.level ks) :
    Jams (s.readFrom nested op.level) op.level (ks ++ op.token :: ls) := by
  intro _ rest e rest' hall _ hok
  obtain ⟨ts, t, us, rfl, hts, ht, _⟩ := exists_of_map_eq_operator hall
  rw [List.append_assoc, List.cons_append] at hok
  exact h hts (stops_operator ht _) hok

/-- The right operand of a chain is not read whole. -/
theorem right {op : BinaryOp} (hop : op.level ≠ 3) (hl : Leads s nested op.level ks l)
    (hr : Jams (s.readFrom nested (op.level + 1)) (op.level + 1) ls) :
    Jams (s.readFrom nested op.level) op.level (ks ++ op.token :: ls) := by
  intro _ rest e rest' hall hrest hok
  obtain ⟨ts, t, us, rfl, hts, ht, hus⟩ := exists_of_map_eq_operator hall
  obtain ⟨limit, hlimit, hread⟩ := hl hts (stops_operator ht (us ++ rest))
  cases limit with
  | zero => simp at hlimit
  | succ limit =>
    rw [List.append_assoc, List.cons_append, hread, continueFrom,
      if_pos (groupsLeft_level hop), readChainFrom, bind_operator?_of_token ht] at hok
    obtain ⟨⟨right, rest₁⟩, hright, hok⟩ := except_bind_eq_ok.mp hok
    obtain ⟨hle, hblocks⟩ := hr hus (hrest.mono (Nat.le_succ _)) hright
    dsimp only at hok
    rw [readChainFrom_of_none (hblocks.bind_operator? hop)] at hok
    cases hok
    exact ⟨by omega, hblocks⟩

/-- The right operand of a comparison is not read whole. -/
theorem comparison {op : BinaryOp} (hop : op.level = 3)
    (hl : Reads (s.readFrom nested 4) 4 ks l) (hr : Jams (s.readFrom nested 4) 4 ls) :
    Jams (s.readFrom nested 3) 3 (ks ++ op.token :: ls) := by
  intro _ rest e rest' hall hrest hok
  obtain ⟨ts, t, us, rfl, hts, ht, hus⟩ := exists_of_map_eq_operator hall
  have hstops := stops_operator ht (us ++ rest)
  have hnext : (nextKind (t :: (us ++ rest))).bind TokenKind.comparison? = some op := by
    have hnext := bind_operator?_of_token ht (us ++ rest)
    rwa [hop] at hnext
  rw [hop] at hstops
  rw [List.append_assoc, List.cons_append, readFrom_relational, readRelational, hl hts hstops,
    except_ok_bind] at hok
  dsimp only at hok
  rw [hnext] at hok
  obtain ⟨⟨right, rest₁⟩, hright, _⟩ := except_bind_eq_ok.mp hok
  exact absurd (hr hus (hrest.mono (Nat.le_succ _)) hright).1 (by decide)

/-- A comparison after a comparison or an `IN` is not read. -/
theorem chained {op : BinaryOp} (hop : op.level = 3) (hl : Leads s nested 3 ks l) :
    Jams (s.readFrom nested 3) 3 (ks ++ op.token :: ls) := by
  intro _ rest e rest' hall _ hok
  obtain ⟨ts, t, us, rfl, hts, ht, _⟩ := exists_of_map_eq_operator hall
  have hstops := stops_operator ht (us ++ rest)
  have hnext := bind_operator?_of_token ht (us ++ rest)
  rw [hop] at hstops hnext
  obtain ⟨limit, _, hread⟩ := hl hts hstops
  rw [List.append_assoc, List.cons_append, hread, continueFrom, if_neg (by decide)] at hok
  cases hok
  exact ⟨Nat.le_refl 3, op, hnext⟩

theorem unary (op : UnaryOp) (h : Jams (s.readFrom nested 6) 6 ks) :
    Jams (s.readFrom nested 6) 6 (op.token :: ks) := by
  intro _ rest e rest' hall hrest hok
  obtain ⟨t, ts, rfl, ht, hts⟩ := List.map_eq_cons_iff.mp hall
  have hop : t.kind.unary? = some op := by
    rw [ht]
    cases op <;> rfl
  rw [List.cons_append, readFrom_unary, readUnary, hop] at hok
  obtain ⟨⟨e', rest₁⟩, hread, _⟩ := except_bind_eq_ok.mp hok
  exact absurd (h hts hrest hread).1 (by decide)

end Jams

/-! ## Arguments -/

section Arguments

variable {es : List Expression} {ts rest : List Token}

theorem readMoreArguments_of_blocks (h : Blocks ts) (limit : Nat) :
    readMoreArguments nested limit ts = .ok ([], ts) := by
  cases limit with
  | zero => rfl
  | succ limit => rw [readMoreArguments, if_neg (h.nextKind_ne (by decide))]

/-- No argument is read after one that is not read whole. -/
theorem Jams.blocks {us vs rest₁ rest₂ : List Token} {e₁ : Expression} {limit : Nat}
    {es₁ : List Expression} (h : Jams nested 1 e.tokens) (hus : us.map Token.kind = e.tokens)
    (hvs : vs.map Token.kind = es.flatMap fun e => .comma :: e.tokens)
    (hrest : nextKind rest = some .rightParen)
    (hread : nested (us ++ (vs ++ rest)) = .ok (e₁, rest₁))
    (hmore : readMoreArguments nested limit rest₁ = .ok (es₁, rest₂)) : Blocks rest₂ := by
  have hblocks := (h hus ((stops_arguments hvs hrest).mono (by decide)) hread).2
  rw [readMoreArguments_of_blocks hblocks] at hmore
  cases hmore
  exact hblocks

/-- The reader of arguments stops before the comparison that the first of them stopped at that is not
read whole. -/
theorem readMoreArguments_blocks
    (h : ∀ e' ∈ e :: es, Reads nested 1 e'.tokens e' ∨ Jams nested 1 e'.tokens)
    (hjams : ∃ e' ∈ e :: es, Jams nested 1 e'.tokens) {us vs : List Token}
    (hus : us.map Token.kind = e.tokens)
    (hvs : vs.map Token.kind = es.flatMap fun e => .comma :: e.tokens)
    (hrest : nextKind rest = some .rightParen) {e₁ : Expression} {rest₁ : List Token}
    (hread : nested (us ++ (vs ++ rest)) = .ok (e₁, rest₁)) {limit : Nat}
    (hlimit : rest₁ = vs ++ rest → vs.length ≤ limit) {es₁ : List Expression}
    {rest₂ : List Token} (hmore : readMoreArguments nested limit rest₁ = .ok (es₁, rest₂)) :
    Blocks rest₂ := by
  induction es generalizing e us vs e₁ rest₁ limit es₁ with
  | nil =>
    obtain ⟨_, he', hjam⟩ := hjams
    obtain rfl := List.mem_singleton.mp he'
    exact hjam.blocks hus hvs hrest hread hmore
  | cons e' es ih =>
    by_cases he : Jams nested 1 e.tokens
    · exact he.blocks hus hvs hrest hread hmore
    · -- the first argument is read, so the second one is next
      have hreads := (h e List.mem_cons_self).resolve_right he
      rw [hreads hus (stops_arguments hvs hrest)] at hread
      cases hread
      have hjams : ∃ e'' ∈ e' :: es, Jams nested 1 e''.tokens := by
        obtain ⟨e'', he'', hjam⟩ := hjams
        rcases List.mem_cons.mp he'' with rfl | he''
        · exact absurd hjam he
        · exact ⟨e'', he'', hjam⟩
      have hlimit := hlimit rfl
      rw [List.flatMap_cons, List.cons_append] at hvs
      obtain ⟨t, _, rfl, ht, htail⟩ := List.map_eq_cons_iff.mp hvs
      obtain ⟨us', vs', rfl, hus', hvs'⟩ := List.map_eq_append_iff.mp htail
      cases limit with
      | zero => simp at hlimit
      | succ limit =>
        rw [List.cons_append, List.append_assoc, readMoreArguments, nextKind_cons, ht,
          if_pos rfl] at hmore
        obtain ⟨⟨e₂, rest₃⟩, hread, hmore⟩ := except_bind_eq_ok.mp hmore
        obtain ⟨⟨es₂, rest₄⟩, hmore, hok⟩ := except_bind_eq_ok.mp hmore
        cases hok
        refine ih (fun e'' he'' => h e'' (List.mem_cons_of_mem _ he'')) hjams hus' hvs' hread
          (fun _ => ?_) hmore
        simp at hlimit
        omega

/-- A list in parentheses is not read if one of the expressions is not read whole. -/
theorem readArguments_ne_ok (h : ∀ e ∈ es, Reads nested 1 e.tokens e ∨ Jams nested 1 e.tokens)
    (hjams : ∃ e ∈ es, Jams nested 1 e.tokens)
    (hts : ts.map Token.kind = .leftParen :: (Expression.tokensOfAll es ++ [.rightParen]))
    (rest : List Token) (result : List Expression × List Token) :
    s.readArguments nested (ts ++ rest) ≠ .ok result := by
  intro hok
  obtain ⟨span, us, c, rfl, hus, hc⟩ := exists_of_map_eq_parentheses hts
  have hend : nextKind (c :: rest) = some .rightParen := congrArg some hc
  rw [List.cons_append, List.append_assoc, List.singleton_append, readArguments,
    expect_of_eq (t := ⟨.leftParen, span⟩) rfl, except_ok_bind] at hok
  cases es with
  | nil =>
    obtain ⟨e, he, _⟩ := hjams
    cases he
  | cons e es =>
    rw [tokensOfAll_cons] at hus
    obtain ⟨vs, ws, rfl, hvs, hws⟩ := List.map_eq_append_iff.mp hus
    rw [List.append_assoc, if_neg ((opens_tokens e).nextKind_ne hvs _)] at hok
    obtain ⟨⟨e', rest₁⟩, hread, hok⟩ := except_bind_eq_ok.mp hok
    obtain ⟨⟨es', rest₂⟩, hmore, hok⟩ := except_bind_eq_ok.mp hok
    obtain ⟨_, hclose, _⟩ := except_bind_eq_ok.mp hok
    have hblocks := readMoreArguments_blocks h hjams hvs hws hend hread
      (fun hrest₁ => by simp [hrest₁]) hmore
    obtain ⟨c', rfl, hc'⟩ := exists_of_expect hclose
    exact absurd (congrArg some hc') (hblocks.nextKind_ne (by decide))

/-- A call is not read if an argument is not read whole. -/
theorem Jams.call (h : ∀ e ∈ es, Reads nested 1 e.tokens e ∨ Jams nested 1 e.tokens)
    (hjams : ∃ e ∈ es, Jams nested 1 e.tokens) (c : Callee) :
    Jams (s.readFrom nested 6) 6
      (c.token :: .leftParen :: (Expression.tokensOfAll es ++ [.rightParen])) := by
  intro _ rest e rest' hall _ hok
  obtain ⟨⟨_, span⟩, us, rfl, rfl, hus⟩ := List.map_eq_cons_iff.mp hall
  have hnext : nextKind (us ++ rest) = some .leftParen := by
    obtain ⟨t, _, rfl, ht, _⟩ := List.map_eq_cons_iff.mp hus
    exact congrArg some ht
  rw [List.cons_append, readFrom_unary, readUnary_eq (by rintro _ ⟨⟩; cases c <;> rfl)] at hok
  cases c with
  | builtin name =>
    have hok : s.readWord nested name span (us ++ rest) = .ok (e, rest') := hok
    rw [readWord, if_pos hnext] at hok
    obtain ⟨result, hargs, _⟩ := except_bind_eq_ok.mp hok
    exact absurd hargs (readArguments_ne_ok h hjams hus rest result)
  | iri i =>
    have hok : s.readIriOrCall nested ⟨i.text⟩ (us ++ rest) = .ok (e, rest') := hok
    rw [readIriOrCall, if_pos hnext] at hok
    obtain ⟨result, hargs, _⟩ := except_bind_eq_ok.mp hok
    exact absurd hargs (readArguments_ne_ok h hjams hus rest result)

/-- The operand of an `IN` is not read whole. -/
theorem Jams.isIn (h : Jams (s.readFrom nested 4) 4 ks) {negated : Bool} {ws : List TokenKind}
    (hws : Membership negated ws) : Jams (s.readFrom nested 3) 3 (ks ++ (ws ++ ls)) := by
  intro _ rest e rest' hall _ hok
  obtain ⟨ts, _, rfl, hts, htail⟩ := List.map_eq_append_iff.mp hall
  obtain ⟨ws, us, rfl, rfl, _⟩ := List.map_eq_append_iff.mp htail
  rw [List.append_assoc, List.append_assoc, readFrom_relational] at hok
  obtain ⟨⟨left, rest₁⟩, hleft, _⟩ := except_bind_eq_ok.mp hok
  exact absurd (h hts ((stops_membership hws _).mono (by decide)) hleft).1 (by decide)

/-- A candidate of an `IN` is not read whole. -/
theorem Reads.isIn_jams (he : Reads (s.readFrom nested 4) 4 ks e)
    (h : ∀ e ∈ es, Reads nested 1 e.tokens e ∨ Jams nested 1 e.tokens)
    (hjams : ∃ e ∈ es, Jams nested 1 e.tokens) {negated : Bool} {ws : List TokenKind}
    (hws : Membership negated ws) :
    Jams (s.readFrom nested 3) 3
      (ks ++ (ws ++ .leftParen :: (Expression.tokensOfAll es ++ [.rightParen]))) := by
  intro _ rest e' rest' hall _ hok
  obtain ⟨ts, _, rfl, hts, htail⟩ := List.map_eq_append_iff.mp hall
  obtain ⟨ws, us, rfl, rfl, hus⟩ := List.map_eq_append_iff.mp htail
  rw [List.append_assoc, List.append_assoc, readFrom_relational,
    readRelational_membership hws (he hts (stops_membership hws _))] at hok
  cases hargs : s.readArguments nested (us ++ rest) with
  | error fault =>
    rw [hargs] at hok
    cases hok
  | ok result => exact absurd hargs (readArguments_ne_ok h hjams hus rest result)

end Arguments

/-! ## Expressions -/

/-- Of expressions that are shorter than what they stand in, those without a chain are read, and there
is one that jams. -/
theorem reads_or_jams {n : Nat} {es : List Expression}
    (hreads : ∀ e : Expression, IsReadable e → e.tokens.length < n → Reads nested 1 e.tokens e)
    (hjams : ∀ e : Expression, e.IsPlain → ¬e.IsUnchained → e.tokens.length < n →
      Jams nested 1 e.tokens)
    (hplain : ∀ e ∈ es, e.IsPlain) (h : ¬∀ e ∈ es, e.IsUnchained)
    (hn : (Expression.tokensOfAll es).length < n) :
    (∀ e ∈ es, Reads nested 1 e.tokens e ∨ Jams nested 1 e.tokens) ∧
      ∃ e ∈ es, Jams nested 1 e.tokens := by
  have hlen : ∀ e ∈ es, e.tokens.length < n := fun e he =>
    Nat.lt_of_le_of_lt (length_le_tokensOfAll he) hn
  constructor
  · intro e he
    by_cases hu : e.IsUnchained
    · exact .inl (hreads e ⟨hplain e he, hu⟩ (hlen e he))
    · exact .inr (hjams e (hplain e he) hu (hlen e he))
  · obtain ⟨e, h⟩ := Classical.not_forall.mp h
    obtain ⟨he, hu⟩ := Classical.not_imp.mp h
    exact ⟨e, he, hjams e (hplain e he) hu (hlen e he)⟩

/-- An expression with a chain in it jams at its own level, if shorter ones are read in parentheses or
jam there. The proof is by induction on the operands, and it goes to the first one with a chain in it;
what stands before it is read. -/
theorem jams_expression {n : Nat}
    (hreads : ∀ e : Expression, IsReadable e → e.tokens.length < n → Reads nested 1 e.tokens e)
    (hjams : ∀ e : Expression, e.IsPlain → ¬e.IsUnchained → e.tokens.length < n →
      Jams nested 1 e.tokens) :
    ∀ e : Expression, e.IsPlain → ¬e.IsUnchained → e.tokens.length ≤ n →
      Jams (s.readFrom nested (min e.level 6)) (min e.level 6) e.tokens
  | .term t, _, h, _ => absurd trivial h
  | .binary op l r, hplain, h, hn => by
    obtain ⟨_, hpl, hpr⟩ := hplain
    have hlevel := op.level_mem
    have hlenl := length_le_parenthesizeTokens (l.level < op.level) l.tokens
    have hlenr := length_le_parenthesizeTokens (r.level ≤ op.level) r.tokens
    rw [Expression.tokens, List.length_append, List.length_cons] at hn
    have hmin : min (Expression.binary op l r).level 6 = op.level :=
      Nat.min_eq_left (Nat.le_succ_of_le hlevel.2)
    rw [hmin, Expression.tokens]
    by_cases hul : l.IsUnchained
    · have hleft : Leads s nested l.level l.tokens l :=
        leads_expression hreads l ⟨hpl, hul⟩ (by omega)
      have hparen : l.level < op.level → Reads nested 1 l.tokens l :=
        fun _ => hreads l ⟨hpl, hul⟩ (by omega)
      by_cases hchain : op.level = 3 ∧ l.level = 3
      · obtain ⟨hthree, hl⟩ := hchain
        rw [hl] at hleft
        rw [hl, hthree]
        exact Jams.chained hthree hleft
      · have hur : ¬r.IsUnchained := fun hur =>
          h ⟨fun hthree hl => hchain ⟨hthree, hl⟩, hul, hur⟩
        have hright : Jams (s.readFrom nested (op.level + 1)) (op.level + 1)
            (Expression.parenthesizeTokens (r.level ≤ op.level) r.tokens) :=
          Jams.operand (fun _ => jams_expression hreads hjams r hpr hur (by omega))
            (fun _ => hjams r hpr hur (by omega))
            (fun hneeded => Nat.lt_of_not_le (of_decide_eq_false hneeded)) (by omega) (by omega)
        by_cases hthree : op.level = 3
        · rw [hthree] at hright hparen hchain ⊢
          refine Jams.comparison hthree (Leads.operand (fun _ => hleft)
            (fun hneeded => hparen (of_decide_eq_true hneeded)) (fun hneeded => ?_) (by omega)
            (by omega)) hright
          have hle := Nat.le_of_not_lt (of_decide_eq_false hneeded)
          omega
        · exact Jams.right hthree (hleft.leftOperand hthree hparen) hright
    · exact Jams.left (Jams.operand
        (fun _ => jams_expression hreads hjams l hpl hul (by omega))
        (fun _ => hjams l hpl hul (by omega))
        (fun hneeded => Nat.le_of_not_lt (of_decide_eq_false hneeded)) (by omega) (by omega))
  | .unary op e, hplain, h, hn => by
    have hlen := length_le_parenthesizeTokens (e.level < 6) e.tokens
    have he : ¬e.IsUnchained := fun he => h ⟨trivial, he⟩
    rw [Expression.tokens, List.length_cons] at hn
    rw [Expression.tokens]
    exact Jams.unary op (Jams.operand
      (fun _ => jams_expression hreads hjams e hplain.2 he (by omega))
      (fun _ => hjams e hplain.2 he (by omega))
      (fun hneeded => Nat.le_of_not_lt (of_decide_eq_false hneeded)) (by omega) (by omega))
  | .call c es, hplain, h, hn => by
    rw [Expression.tokens, List.length_cons, List.length_cons, List.length_append] at hn
    rw [Expression.tokens]
    obtain ⟨hes, hjam⟩ := reads_or_jams hreads hjams
      (Expression.everywhereInAll_iff.mp hplain.2)
      (fun hes => h ⟨trivial, Expression.everywhereInAll_iff.mpr hes⟩) (by omega)
    exact Jams.call hes hjam c
  | .isIn e es negated, hplain, h, hn => by
    obtain ⟨_, hpe, hpes⟩ := hplain
    have hlen := length_le_parenthesizeTokens (e.level ≤ 3) e.tokens
    rw [Expression.tokens, List.length_append, List.length_append, List.length_cons,
      List.length_append] at hn
    rw [Expression.tokens]
    by_cases he : e.IsUnchained
    · obtain ⟨hes, hjam⟩ := reads_or_jams hreads hjams (Expression.everywhereInAll_iff.mp hpes)
        (fun hes => h ⟨trivial, he, Expression.everywhereInAll_iff.mpr hes⟩) (by omega)
      exact Reads.isIn_jams (Leads.operand
        (fun _ => leads_expression hreads e ⟨hpe, he⟩ (by omega))
        (fun _ => hreads e ⟨hpe, he⟩ (by omega))
        (fun hneeded => Nat.lt_of_not_le (of_decide_eq_false hneeded)) (by omega) (by omega))
        hes hjam (membership_tokens negated)
    · exact Jams.isIn (Jams.operand
        (fun _ => jams_expression hreads hjams e hpe he (by omega))
        (fun _ => hjams e hpe he (by omega))
        (fun hneeded => Nat.lt_of_not_le (of_decide_eq_false hneeded)) (by omega) (by omega))
        (membership_tokens negated)

theorem jams_within (n : Nat) (hplain : e.IsPlain) (h : ¬e.IsUnchained)
    (hn : e.tokens.length ≤ n) : Jams (s.readExpressionWithin n) 1 e.tokens := by
  induction n generalizing e with
  | zero =>
    obtain ⟨kind, ls, htokens, _⟩ := opens_tokens e
    rw [htokens] at hn
    cases hn
  | succ n ih =>
    have hlevel := e.level_mem
    rw [readExpressionWithin, readLevels_eq]
    exact (jams_expression (fun e he hn => reads_within n he (Nat.le_of_lt_succ hn))
      (fun e he hu hn => ih he hu (Nat.le_of_lt_succ hn)) e hplain h hn).loosen (Nat.le_refl 1)
      (by omega) (by omega)

/-- The tokens of an expression with a chain in it are not read. -/
theorem readAll_readExpression_of_chained {ts : List Token} (hplain : e.IsPlain)
    (h : ¬e.IsUnchained) (hts : ts.map Token.kind = e.tokens) (result : Expression) :
    s.readAll s.readExpression ts ≠ .ok result := by
  intro hok
  obtain ⟨⟨e', rest⟩, hread, hok⟩ := except_bind_eq_ok.mp hok
  have hlength : e.tokens.length ≤ ts.length := by rw [← hts, List.length_map]
  have hwhole : s.readExpressionWithin ts.length (ts ++ []) = .ok (e', rest) := by
    rw [List.append_nil]
    exact hread
  have hblocks := (jams_within ts.length hplain h hlength hts (stops_nil 2) hwhole).2
  obtain ⟨_, hnext, _⟩ := hblocks.exists_nextKind
  cases rest with
  | nil => cases hnext
  | cons t rest => cases hok

end GraphPattern.Shorthand
