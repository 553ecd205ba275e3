import GraphPattern.Proofs.Shorthand.Grammar

/-!
# Reading the tokens of an expression

Expressions are read level by level. A reader of one level stops at an operator of a looser one
(`Stops`), so an expression is read whole in front of such an operator (`Reads`). In front of an operator
of its own level, the expression is the left operand of what follows (`Leads`): that is how operators of
one level group to the left. Each form of expression has one lemma, in which its operands are read by
the reader of their level, and what stands in parentheses by the nested one.
-/

namespace GraphPattern.Shorthand

open Steps

/-- Tokens in parentheses. -/
theorem exists_of_map_eq_parentheses {ts : List Token} {ks : List TokenKind}
    (h : ts.map Token.kind = .leftParen :: (ks ++ [.rightParen])) :
    ∃ span us t, ts = ⟨.leftParen, span⟩ :: (us ++ [t]) ∧ us.map Token.kind = ks ∧
      t.kind = .rightParen := by
  obtain ⟨⟨_, span⟩, _, rfl, rfl, hinner⟩ := List.map_eq_cons_iff.mp h
  obtain ⟨us, _, rfl, hus, hends⟩ := List.map_eq_append_iff.mp hinner
  obtain ⟨t, _, rfl, ht, hnil⟩ := List.map_eq_cons_iff.mp hends
  obtain rfl := List.map_eq_nil_iff.mp hnil
  exact ⟨span, us, t, rfl, hus, ht⟩

/-- Tokens with an operator between them. -/
theorem exists_of_map_eq_operator {ts : List Token} {ks ls : List TokenKind} {op : BinaryOp}
    (h : ts.map Token.kind = ks ++ op.token :: ls) :
    ∃ us t vs, ts = us ++ t :: vs ∧ us.map Token.kind = ks ∧ t.kind = op.token ∧
      vs.map Token.kind = ls := by
  obtain ⟨us, _, rfl, hus, htail⟩ := List.map_eq_append_iff.mp h
  obtain ⟨t, vs, rfl, ht, hvs⟩ := List.map_eq_cons_iff.mp htail
  exact ⟨us, t, vs, rfl, hus, ht, hvs⟩

/-! ## Operators between operands -/

/-- The level of an operator between operands. What ends an operand in any case has the lowest level,
and what could still belong to it the highest. -/
def TokenKind.infixLevel : TokenKind → Nat
  | .rightParen | .comma => 0
  | .or => 1
  | .and => 2
  | .eq | .notEq | .lt | .gt | .ltEq | .gtEq | .word _ => 3
  | .plus | .minus => 4
  | .star | .slash => 5
  | _ => 8

/-- Whether a reader of the level stops before the tokens. -/
def Stops (k : Nat) (ts : List Token) : Prop := ∀ kind ∈ nextKind ts, kind.infixLevel < k

theorem infixLevel_token : ∀ op : BinaryOp, op.token.infixLevel = op.level := by
  decide

theorem infixLevel_of_operator? {k : Nat} {kind : TokenKind} {op : BinaryOp}
    (h : operator? k kind = some op) : kind.infixLevel = k := by
  obtain ⟨rfl, rfl⟩ := eq_token_of_operator? h
  exact infixLevel_token op

theorem Stops.mono {k k' : Nat} {ts : List Token} (h : Stops k ts) (hk : k ≤ k') : Stops k' ts :=
  fun kind hkind => Nat.lt_of_lt_of_le (h kind hkind) hk

theorem stops_cons {k : Nat} {t : Token} {ts : List Token} :
    Stops k (t :: ts) ↔ t.kind.infixLevel < k := by
  simp [Stops]

theorem stops_nil (k : Nat) : Stops k [] := fun kind h => by cases h

/-- Between the tightest operator and what belongs to an operand there is no level. -/
theorem Stops.tight {k : Nat} {ts : List Token} (h : Stops k ts) (hk : k ≤ 8) : Stops 6 ts := by
  intro kind hkind
  have hlt := Nat.lt_of_lt_of_le (h kind hkind) hk
  cases kind <;> simp [TokenKind.infixLevel] at hlt ⊢

theorem bind_operator?_of_stops {k : Nat} {ts : List Token} (h : Stops k ts) :
    (nextKind ts).bind (operator? k) = none := by
  cases hnext : nextKind ts with
  | none => rfl
  | some kind =>
    cases hop : operator? k kind with
    | none => exact hop
    | some op =>
      have hlt := h kind hnext
      rw [infixLevel_of_operator? hop] at hlt
      exact absurd hlt (Nat.lt_irrefl k)

section Operator

variable {op : BinaryOp} {t : Token} (ht : t.kind = op.token) (ts : List Token)
include ht

theorem stops_operator : Stops (op.level + 1) (t :: ts) := by
  rw [stops_cons, ht, infixLevel_token]
  exact Nat.lt_succ_self op.level

theorem bind_operator?_of_token : (nextKind (t :: ts)).bind (operator? op.level) = some op := by
  rw [nextKind_cons, ht]
  exact operator?_token op

end Operator

/-! ## Reading what follows -/

namespace Source

variable (s : Source) (nested : Reader Expression)

/-- What the reader of a level does after an operand that it has read. The limit bounds the number of
operators. -/
def continueFrom (k limit : Nat) (e : Expression) : Reader Expression := fun ts =>
  if GroupsLeft k then readChainFrom (s.readFrom nested (k + 1)) (operator? k) limit e ts
  else .ok (e, ts)

end Source

/-- The reader reads the tokens as the expression where it stops after them. -/
def Reads (r : Reader Expression) (k : Nat) (ks : List TokenKind) (e : Expression) : Prop :=
  ∀ ⦃ts rest⦄, ts.map Token.kind = ks → Stops k rest → r (ts ++ rest) = .ok (e, rest)

/-- The reader of a level reads the tokens as the expression or as the left operand of what
follows. -/
def Leads (s : Source) (nested : Reader Expression) (k : Nat) (ks : List TokenKind)
    (e : Expression) : Prop :=
  ∀ ⦃ts rest⦄, ts.map Token.kind = ks → Stops (k + 1) rest →
    ∃ limit, rest.length ≤ limit ∧
      s.readFrom nested k (ts ++ rest) = s.continueFrom nested k limit e rest

open Source

variable {s : Source} {nested : Reader Expression} {k : Nat} {ks ls : List TokenKind}
  {e l r : Expression}

/-! ## From one level to another -/

theorem readChainFrom_of_none {operand : Reader Expression} {op? : TokenKind → Option BinaryOp}
    {rest : List Token} (h : (nextKind rest).bind op? = none) (limit : Nat) (e : Expression) :
    readChainFrom operand op? limit e rest = .ok (e, rest) := by
  cases limit with
  | zero => rfl
  | succ limit => rw [readChainFrom, h]

theorem readChainFrom_of_some {operand : Reader Expression} {op? : TokenKind → Option BinaryOp}
    {op : BinaryOp} {ts rest : List Token} (hop : (nextKind ts).bind op? = some op)
    (h : operand (ts.drop 1) = .ok (e, rest)) (limit : Nat) (left : Expression) :
    readChainFrom operand op? (limit + 1) left ts =
      readChainFrom operand op? limit (.binary op left e) rest := by
  rw [readChainFrom, hop]
  dsimp only
  rw [h]
  rfl

theorem readChain_of_ok {operand : Reader Expression} {op? : TokenKind → Option BinaryOp}
    {ts rest : List Token} (h : operand ts = .ok (e, rest)) :
    readChain operand op? ts = readChainFrom operand op? rest.length e rest := by
  rw [readChain, h]
  rfl

theorem Leads.reads (h : Leads s nested k ks e) : Reads (s.readFrom nested k) k ks e := by
  intro ts rest hts hrest
  obtain ⟨limit, _, hread⟩ := h hts (hrest.mono (Nat.le_succ k))
  rw [hread, continueFrom]
  split
  · exact readChainFrom_of_none (bind_operator?_of_stops hrest) limit e
  · rfl

/-- An operand of a chain is its first one. -/
theorem Reads.leads (hk : GroupsLeft k) (h : Reads (s.readFrom nested (k + 1)) (k + 1) ks e) :
    Leads s nested k ks e := by
  intro ts rest hts hrest
  refine ⟨rest.length, Nat.le_refl _, ?_⟩
  rw [readFrom_of_groupsLeft s nested hk, readChain_of_ok (h hts hrest), continueFrom, if_pos hk]

theorem nextIsKeyword_of_stops {ts : List Token} (h : Stops 3 ts) (keyword : String) :
    nextIsKeyword keyword ts = false := by
  unfold nextIsKeyword
  cases hnext : nextKind ts with
  | none => rfl
  | some kind =>
    have hlt := h kind hnext
    cases kind <;> first | rfl | exact absurd hlt (Nat.lt_irrefl 3)

section Relational

variable {operand : Reader Expression} {candidates : Reader (List Expression)}
  {ts rest rest' : List Token}

theorem readRelational_of_some {op : BinaryOp} (hl : operand ts = .ok (l, rest))
    (hop : (nextKind rest).bind TokenKind.comparison? = some op)
    (hr : operand (rest.drop 1) = .ok (r, rest')) :
    readRelational operand candidates ts = .ok (.binary op l r, rest') := by
  rw [readRelational, hl, except_ok_bind]
  dsimp only
  rw [hop]
  dsimp only
  rw [hr]
  rfl

theorem readRelational_of_none (h : operand ts = .ok (e, rest))
    (hop : (nextKind rest).bind TokenKind.comparison? = none) :
    readRelational operand candidates ts =
      if nextIsKeyword "IN" rest then do
        let (es, rest) ← candidates (rest.drop 1)
        .ok (.isIn e es false, rest)
      else if nextIsKeyword "NOT" rest && nextIsKeyword "IN" (rest.drop 1) then do
        let (es, rest) ← candidates (rest.drop 2)
        .ok (.isIn e es true, rest)
      else .ok (e, rest) := by
  rw [readRelational, h, except_ok_bind]
  dsimp only
  rw [hop]

/-- Without a comparison and without an `IN` there is only the operand. -/
theorem readRelational_of_stops (h : operand ts = .ok (e, rest)) (hrest : Stops 3 rest) :
    readRelational operand candidates ts = .ok (e, rest) := by
  rw [readRelational_of_none h (bind_operator?_of_stops hrest)]
  simp [nextIsKeyword_of_stops hrest]

end Relational

theorem readUnary_eq {primary : Reader Expression} {ts : List Token}
    (h : ∀ kind ∈ nextKind ts, kind.unary? = none) : readUnary primary ts = primary ts := by
  cases ts with
  | nil => rfl
  | cons t ts => rw [readUnary, h t.kind rfl]

/-- What is an operand by itself does not start with an operator. -/
theorem readUnary_of_ok {ts rest : List Token} (h : s.readPrimary nested ts = .ok (e, rest)) :
    readUnary (s.readPrimary nested) ts = .ok (e, rest) := by
  rw [readUnary_eq, h]
  cases ts with
  | nil => nofun
  | cons t ts =>
    obtain ⟨kind, span⟩ := t
    rintro _ ⟨⟩
    cases kind <;> first | rfl | cases h

theorem Reads.descend (hpos : 1 ≤ k) (hk : k ≤ 6)
    (h : Reads (s.readFrom nested (k + 1)) (k + 1) ks e) : Reads (s.readFrom nested k) k ks e := by
  by_cases hchain : GroupsLeft k
  · exact (Reads.leads hchain h).reads
  · intro ts rest hts hrest
    have hok := h hts (hrest.mono (Nat.le_succ k))
    obtain rfl | rfl : k = 3 ∨ k = 6 := by
      unfold GroupsLeft at hchain
      omega
    · exact readRelational_of_stops hok hrest
    · exact readUnary_of_ok hok

theorem Reads.loosen {k' : Nat} (h : Reads (s.readFrom nested k') k' ks e) (hpos : 1 ≤ k)
    (hk : k ≤ k') (hk' : k' ≤ 7) : Reads (s.readFrom nested k) k ks e := by
  induction k' with
  | zero => omega
  | succ k' ih =>
    rcases Nat.lt_or_eq_of_le hk with hlt | rfl
    · exact ih (h.descend (by omega) (by omega)) (by omega) (by omega)
    · exact h

theorem Leads.reads_from {k : Nat} (h : Leads s nested e.level ks e) (hpos : 1 ≤ k)
    (hk : k ≤ e.level) : Reads (s.readFrom nested k) k ks e :=
  h.reads.loosen hpos hk e.level_mem.2

/-! ## Parentheses -/

theorem expect_of_eq {kind : ParseErrorKind} {t : Token} {wanted : TokenKind} (h : t.kind = wanted)
    (ts : List Token) : s.expect kind wanted (t :: ts) = .ok ts := by
  rw [expect, nextKind_cons, h, if_pos rfl]
  rfl

theorem stops_rightParen {t : Token} (h : t.kind = .rightParen) (ts : List Token) :
    Stops 1 (t :: ts) := by
  rw [stops_cons, h]
  exact Nat.zero_lt_one

theorem stops_comma {t : Token} (h : t.kind = .comma) (ts : List Token) : Stops 1 (t :: ts) := by
  rw [stops_cons, h]
  exact Nat.zero_lt_one

/-- An expression in parentheses is an operand, whatever follows. -/
theorem Reads.parenthesize (h : Reads nested 1 ks e) (k : Nat) :
    Reads (s.readFrom nested 7) k (.leftParen :: (ks ++ [.rightParen])) e := by
  intro _ rest hall _
  obtain ⟨span, ts, t, rfl, hts, ht⟩ := exists_of_map_eq_parentheses hall
  have hread := h hts (stops_rightParen ht rest)
  rw [List.cons_append, List.append_assoc, List.singleton_append, s.readFrom_primary]
  simp only [Source.readPrimary]
  rw [hread]
  show (do
    let rest ← s.expect .malformedExpression .rightParen (t :: rest)
    .ok (e, rest)) = _
  rw [expect_of_eq ht]
  rfl

/-! ## Operators between operands -/

/-- One more operator and operand of a chain. -/
theorem Leads.binary {op : BinaryOp} (hop : op.level ≠ 3) (hl : Leads s nested op.level ks l)
    (hr : Reads (s.readFrom nested (op.level + 1)) (op.level + 1) ls r) :
    Leads s nested op.level (ks ++ op.token :: ls) (.binary op l r) := by
  have hchain := groupsLeft_level hop
  intro _ rest hall hrest
  obtain ⟨ts, t, us, rfl, hts, ht, hus⟩ := exists_of_map_eq_operator hall
  obtain ⟨limit, hlimit, hread⟩ := hl hts (stops_operator ht (us ++ rest))
  cases limit with
  | zero => simp at hlimit
  | succ limit =>
    refine ⟨limit, by simp at hlimit; omega, ?_⟩
    rw [List.append_assoc, List.cons_append, hread, continueFrom, if_pos hchain, continueFrom,
      if_pos hchain]
    exact readChainFrom_of_some (bind_operator?_of_token ht _) (hr hus hrest) limit l

/-- One comparison. -/
theorem Reads.comparison {op : BinaryOp} (hop : op.level = 3)
    (hl : Reads (s.readFrom nested 4) 4 ks l) (hr : Reads (s.readFrom nested 4) 4 ls r) :
    Leads s nested 3 (ks ++ op.token :: ls) (.binary op l r) := by
  intro _ rest hall hrest
  obtain ⟨ts, t, us, rfl, hts, ht, hus⟩ := exists_of_map_eq_operator hall
  have hstops := stops_operator ht (us ++ rest)
  have hnext := bind_operator?_of_token ht (us ++ rest)
  rw [hop] at hstops hnext
  refine ⟨rest.length, Nat.le_refl _, ?_⟩
  rw [List.append_assoc, List.cons_append, readFrom_relational,
    readRelational_of_some (hl hts hstops) hnext (hr hus hrest)]
  rfl

/-- An operator in front of an operand. -/
theorem Reads.unary (op : UnaryOp) (h : Reads (s.readFrom nested 6) 6 ks e) :
    Leads s nested 6 (op.token :: ks) (.unary op e) := by
  intro _ rest hall hrest
  obtain ⟨t, ts, rfl, ht, hts⟩ := List.map_eq_cons_iff.mp hall
  have hop : t.kind.unary? = some op := by
    rw [ht]
    cases op <;> rfl
  refine ⟨rest.length, Nat.le_refl _, ?_⟩
  have hread := h hts (hrest.tight (Nat.le_succ 7))
  rw [readFrom_unary] at hread ⊢
  rw [List.cons_append, readUnary, hop]
  show (readUnary (readFrom s nested 7) (ts ++ rest) >>= _) = _
  rw [hread]
  rfl

/-! ## Arguments -/

section Arguments

variable {α : Type} {xs : List α} {tokens : α → List TokenKind} {value : α → Expression}

/-- What comes after an argument ends an expression. -/
theorem stops_arguments {ts rest : List Token}
    (hts : ts.map Token.kind = xs.flatMap fun x => .comma :: tokens x)
    (hrest : nextKind rest = some .rightParen) : Stops 1 (ts ++ rest) := by
  cases xs with
  | nil =>
    obtain rfl := List.map_eq_nil_iff.mp hts
    intro kind hkind
    rw [List.nil_append, hrest] at hkind
    cases hkind
    exact Nat.zero_lt_one
  | cons x xs =>
    rw [List.flatMap_cons, List.cons_append] at hts
    obtain ⟨t, us, rfl, ht, _⟩ := List.map_eq_cons_iff.mp hts
    exact stops_comma ht (us ++ rest)

theorem readMoreArguments_eq (h : ∀ x ∈ xs, Reads nested 1 (tokens x) (value x))
    {limit : Nat} {ts rest : List Token} (hlimit : ts.length ≤ limit)
    (hts : ts.map Token.kind = xs.flatMap fun x => .comma :: tokens x)
    (hrest : nextKind rest = some .rightParen) :
    readMoreArguments nested limit (ts ++ rest) = .ok (xs.map value, rest) := by
  induction xs generalizing limit ts with
  | nil =>
    obtain rfl := List.map_eq_nil_iff.mp hts
    cases limit with
    | zero => rfl
    | succ limit =>
      rw [List.nil_append, readMoreArguments, hrest]
      rfl
  | cons x xs ih =>
    rw [List.flatMap_cons, List.cons_append] at hts
    obtain ⟨t, _, rfl, ht, htail⟩ := List.map_eq_cons_iff.mp hts
    obtain ⟨us, vs, rfl, hus, hvs⟩ := List.map_eq_append_iff.mp htail
    cases limit with
    | zero => simp at hlimit
    | succ limit =>
      have hread := h x List.mem_cons_self hus (stops_arguments hvs hrest)
      have hlength : vs.length ≤ limit := by
        simp at hlimit
        omega
      have hmore := ih (fun x hx => h x (List.mem_cons_of_mem _ hx)) hlength hvs
      rw [List.cons_append, List.append_assoc, readMoreArguments, nextKind_cons, ht, if_pos rfl]
      show (nested (us ++ (vs ++ rest)) >>= _) = _
      rw [hread]
      show (readMoreArguments nested limit (vs ++ rest) >>= _) = _
      rw [hmore]
      rfl

/-- Whether the tokens start with one that is not the end of a list. -/
def Opens (ks : List TokenKind) : Prop := ∃ kind ls, ks = kind :: ls ∧ kind ≠ .rightParen

theorem Opens.append (h : Opens ks) (ls : List TokenKind) : Opens (ks ++ ls) := by
  obtain ⟨kind, ks, rfl, hne⟩ := h
  exact ⟨kind, ks ++ ls, rfl, hne⟩

theorem Opens.nextKind_ne {ts : List Token} (h : Opens ks) (hts : ts.map Token.kind = ks)
    (rest : List Token) : nextKind (ts ++ rest) ≠ some .rightParen := by
  obtain ⟨kind, ls, rfl, hne⟩ := h
  obtain ⟨t, us, rfl, rfl, _⟩ := List.map_eq_cons_iff.mp hts
  intro heq
  exact hne (Option.some.inj heq)

/-- The expressions of a list in parentheses. -/
theorem readArguments_eq (h : ∀ x ∈ xs, Reads nested 1 (tokens x) (value x))
    (hopens : ∀ x ∈ xs, Opens (tokens x)) {ts : List Token}
    (hts : ts.map Token.kind = argumentTokens (xs.map tokens)) (rest : List Token) :
    s.readArguments nested (ts ++ rest) = .ok (xs.map value, rest) := by
  cases xs with
  | nil =>
    obtain ⟨⟨_, span⟩, _, rfl, rfl, hclose⟩ := List.map_eq_cons_iff.mp hts
    obtain ⟨span', rfl⟩ := exists_of_map_eq_singleton hclose
    rfl
  | cons x xs =>
    rw [List.map_cons, argumentTokens, ← List.append_assoc, List.flatMap_map] at hts
    obtain ⟨span, us, c, rfl, hus, hc⟩ := exists_of_map_eq_parentheses hts
    obtain ⟨vs, ws, rfl, hvs, hws⟩ := List.map_eq_append_iff.mp hus
    have hend : nextKind (c :: rest) = some .rightParen := congrArg some hc
    rw [List.cons_append, List.append_assoc, List.singleton_append, readArguments,
      expect_of_eq (t := ⟨.leftParen, span⟩) rfl]
    show (if nextKind (vs ++ ws ++ c :: rest) = some .rightParen then _ else _) = _
    rw [List.append_assoc, if_neg ((hopens x List.mem_cons_self).nextKind_ne hvs _),
      h x List.mem_cons_self hvs (stops_arguments hws hend)]
    show (readMoreArguments nested (ws ++ c :: rest).length (ws ++ c :: rest) >>= _) = _
    rw [readMoreArguments_eq (fun x hx => h x (List.mem_cons_of_mem _ hx)) (by simp) hws hend]
    show (s.expect .malformedExpression .rightParen (c :: rest) >>= _) = _
    rw [expect_of_eq hc]
    rfl

theorem stops_word (word : String) (span : Span) (ts : List Token) :
    Stops 4 (⟨.word word, span⟩ :: ts) :=
  stops_cons.mpr (by simp [TokenKind.infixLevel])

/-- The operand of an `IN` ends before the keywords. -/
theorem stops_membership {ws : List Token} {negated : Bool}
    (hws : Membership negated (ws.map Token.kind)) (ts : List Token) : Stops 4 (ws ++ ts) := by
  generalize hkinds : ws.map Token.kind = kinds at hws
  cases hws <;>
  · obtain ⟨⟨_, span⟩, us, rfl, rfl, _⟩ := List.map_eq_cons_iff.mp hkinds
    exact stops_word _ span (us ++ ts)

/-- After an operand and the keywords come the candidates. -/
theorem readRelational_membership {operand : Reader Expression}
    {candidates : Reader (List Expression)} {ts ws us : List Token} {negated : Bool}
    (hws : Membership negated (ws.map Token.kind)) (h : operand ts = .ok (e, ws ++ us)) :
    readRelational operand candidates ts =
      (candidates us).map fun found => (.isIn e found.1 negated, found.2) := by
  generalize hkinds : ws.map Token.kind = kinds at hws
  cases hws with
  | @isIn word hword =>
    obtain ⟨span, rfl⟩ := exists_of_map_eq_singleton hkinds
    have hin : nextIsKeyword "IN" ([⟨.word word, span⟩] ++ us) = true := decide_eq_true hword
    rw [readRelational_of_none h rfl, if_pos hin]
    show (candidates us >>= _) = _
    cases candidates us <;> rfl
  | @notIn first second hfirst hsecond =>
    obtain ⟨⟨_, span⟩, _, rfl, rfl, hlast⟩ := List.map_eq_cons_iff.mp hkinds
    obtain ⟨span', rfl⟩ := exists_of_map_eq_singleton hlast
    let ts' : List Token := ⟨.word second, span'⟩ :: us
    have hin : ¬nextIsKeyword "IN" (⟨.word first, span⟩ :: ts') = true := fun h => by
      have hfirst' := hfirst.symm.trans (of_decide_eq_true h)
      simp at hfirst'
    have hnot : (nextIsKeyword "NOT" (⟨.word first, span⟩ :: ts') &&
        nextIsKeyword "IN" ts') = true :=
      Bool.and_eq_true_iff.mpr ⟨decide_eq_true hfirst, decide_eq_true hsecond⟩
    rw [readRelational_of_none h rfl]
    show (if nextIsKeyword "IN" (⟨.word first, span⟩ :: ts') = true then _
      else if (nextIsKeyword "NOT" (⟨.word first, span⟩ :: ts') &&
        nextIsKeyword "IN" ts') = true then _ else _) = _
    rw [if_neg hin, if_pos hnot]
    show (candidates us >>= _) = _
    cases candidates us <;> rfl

/-- An operand among candidates. -/
theorem Reads.isIn {negated : Bool} {ws : List TokenKind} (he : Reads (s.readFrom nested 4) 4 ks e)
    (hws : Membership negated ws) (h : ∀ x ∈ xs, Reads nested 1 (tokens x) (value x))
    (hopens : ∀ x ∈ xs, Opens (tokens x)) :
    Leads s nested 3 (ks ++ (ws ++ argumentTokens (xs.map tokens)))
      (.isIn e (xs.map value) negated) := by
  intro _ rest hall hrest
  obtain ⟨ts, _, rfl, hts, htail⟩ := List.map_eq_append_iff.mp hall
  obtain ⟨ws, us, rfl, rfl, hus⟩ := List.map_eq_append_iff.mp htail
  refine ⟨rest.length, Nat.le_refl _, ?_⟩
  rw [List.append_assoc, List.append_assoc, readFrom_relational,
    readRelational_membership hws (he hts (stops_membership hws _)), readArguments_eq h hopens hus]
  rfl

/-! ## Calls and terms -/

/-- A name with arguments. -/
theorem Reads.call {kind : TokenKind} {c : Callee} (hc : Calls s.prefixes kind c)
    (h : ∀ x ∈ xs, Reads nested 1 (tokens x) (value x)) (hopens : ∀ x ∈ xs, Opens (tokens x)) :
    Leads s nested 7 (kind :: argumentTokens (xs.map tokens)) (.call c (xs.map value)) := by
  intro _ rest hall _
  obtain ⟨⟨_, span⟩, us, rfl, rfl, hus⟩ := List.map_eq_cons_iff.mp hall
  have hnext : nextKind (us ++ rest) = some .leftParen := by
    have hleft : (us.map Token.kind).head? = some .leftParen := by
      rw [hus]
      cases xs <;> rfl
    cases us with
    | nil => cases hleft
    | cons t us => exact hleft
  refine ⟨rest.length, Nat.le_refl _, ?_⟩
  rw [List.cons_append, readFrom_primary]
  cases hc with
  | word text =>
    show s.readWord nested text span (us ++ rest) = _
    rw [readWord, if_pos hnext, readArguments_eq h hopens hus]
    rfl
  | iri hiri =>
    cases hiri with
    | iriRef text =>
      show s.readIriOrCall nested ⟨text⟩ (us ++ rest) = _
      rw [readIriOrCall, if_pos hnext, readArguments_eq h hopens hus]
      rfl
    | @prefixedName label name iri hiri =>
      show (s.expand label name span >>= fun iri => s.readIriOrCall nested iri (us ++ rest)) = _
      rw [expand_eq_ok.mpr hiri, except_ok_bind, readIriOrCall, if_pos hnext,
        readArguments_eq h hopens hus]
      rfl

end Arguments

/-- What may follow any operand is neither an argument list nor a datatype. -/
theorem Stops.ne_of_level {kind : TokenKind} {ts : List Token} (h : Stops 8 ts)
    (hkind : kind.infixLevel = 8) : nextKind ts ≠ some kind := by
  intro hnext
  have hlt := h kind hnext
  rw [hkind] at hlt
  exact Nat.lt_irrefl 8 hlt

theorem readSuffix_simple {value : String} {rest : List Token} (h : Stops 8 rest) :
    s.readSuffix value none rest = .ok (.simple value, rest) := by
  cases rest with
  | nil => rfl
  | cons t rest =>
    obtain ⟨kind, span⟩ := t
    cases kind <;> first
      | rfl
      | exact absurd rfl (h.ne_of_level (show TokenKind.doubleCaret.infixLevel = 8 from rfl))

/-- A term is an operand, whatever may follow one. -/
theorem leads_term {t : Term} (ht : Stands s.prefixes ks t) : Leads s nested 7 ks (.term t) := by
  intro _ rest hall hrest
  refine ⟨rest.length, Nat.le_refl _, ?_⟩
  show s.readPrimary nested _ = .ok (.term t, rest)
  cases ht with
  | free name | blank label | tagged value tag =>
    obtain ⟨span, rfl⟩ := exists_of_map_eq_singleton hall
    rfl
  | integer text | decimal text | double text =>
    obtain ⟨span, rfl⟩ := exists_of_map_eq_singleton hall
    show Except.ok (Expression.term (.literal (.typed ("" ++ text) _)), rest) = _
    rw [String.empty_append]
  | iri hiri =>
    obtain ⟨span, rfl⟩ := exists_of_map_eq_singleton hall
    have hnone : ∀ iri : Iri, s.readIriOrCall nested iri rest = .ok (.term (.iri iri), rest) :=
      fun iri => by rw [readIriOrCall, if_neg (hrest.ne_of_level rfl)]
    cases hiri with
    | iriRef text => exact hnone ⟨text⟩
    | @prefixedName label name iri hiri =>
      show (s.expand label name span >>= fun iri => s.readIriOrCall nested iri rest) = _
      rw [expand_eq_ok.mpr hiri, except_ok_bind, hnone]
  | simple value =>
    obtain ⟨span, rfl⟩ := exists_of_map_eq_singleton hall
    show (asTerm (s.readSuffix value none rest) >>= _) = _
    rw [readSuffix_simple hrest]
    rfl
  | typed value hiri =>
    obtain ⟨⟨_, span⟩, _, rfl, rfl, hmore⟩ := List.map_eq_cons_iff.mp hall
    obtain ⟨⟨_, span'⟩, _, rfl, rfl, hlast⟩ := List.map_eq_cons_iff.mp hmore
    obtain ⟨span'', rfl⟩ := exists_of_map_eq_singleton hlast
    cases hiri with
    | iriRef text => rfl
    | @prefixedName label name iri hiri =>
      show (asTerm (s.expand label name span'' >>= fun iri => .ok (.typed value iri, rest)) >>= _) = _
      rw [expand_eq_ok.mpr hiri]
      rfl
  | boolean value =>
    obtain ⟨span, rfl⟩ := exists_of_map_eq_singleton hall
    show s.readWord nested (toString value) span rest = _
    rw [readWord, if_neg (hrest.ne_of_level rfl)]
    cases value <;> rfl

end GraphPattern.Shorthand
