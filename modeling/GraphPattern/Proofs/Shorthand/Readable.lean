import GraphPattern.Proofs.Shorthand.Bare
import GraphPattern.Proofs.Shorthand.Reading

/-!
# Reading the tokens of a plain expression

The tokens of a plain expression without chains are read back as the expression. Its operands stand in
parentheses where they do not bind tightly enough, so each of them is read by the reader of its level
(`leads_expression`); the depth of the parentheses is bounded by the number of tokens (`reads_within`).
-/

namespace GraphPattern.Shorthand

open Steps Source

variable {s : Source} {nested : Reader Expression} {k : Nat} {ks : List TokenKind}
  {e l : Expression} {prefixes : Prefixes}

/-! ## Operands in parentheses -/

/-- An expression as an operand of a level: in parentheses, or not looser than the level. -/
theorem Leads.operand {needed : Bool} (h : needed = false → Leads s nested e.level ks e)
    (hnested : needed = true → Reads nested 1 ks e) (hlevel : needed = false → k ≤ e.level)
    (hpos : 1 ≤ k) (hk : k ≤ 7) :
    Reads (s.readFrom nested k) k (Expression.parenthesizeTokens needed ks) e := by
  cases needed with
  | true => exact (Reads.parenthesize (hnested rfl) 7).loosen hpos hk (Nat.le_refl 7)
  | false => exact (h rfl).reads_from hpos (hlevel rfl)

/-- The first operand of a chain is itself one of the level, or it binds more tightly, or it is in
parentheses. -/
theorem Leads.leftOperand {op : BinaryOp} (hop : op.level ≠ 3) (h : Leads s nested l.level ks l)
    (hnested : l.level < op.level → Reads nested 1 ks l) :
    Leads s nested op.level (Expression.parenthesizeTokens (l.level < op.level) ks) l := by
  have hlevel := op.level_mem
  by_cases hsame : l.level = op.level
  · have hneeded : decide (l.level < op.level) = false := by simp [hsame]
    rw [hneeded, ← hsame]
    exact h
  · refine Reads.leads (groupsLeft_level hop) (Leads.operand (fun _ => h)
      (fun hneeded => hnested (of_decide_eq_true hneeded)) (fun hneeded => ?_) (by omega)
      (by omega))
    have hle := Nat.le_of_not_lt (of_decide_eq_false hneeded)
    omega

/-! ## Tokens of plain expressions -/

theorem Opens.parenthesize (h : Opens ks) (needed : Bool) :
    Opens (Expression.parenthesizeTokens needed ks) := by
  cases needed with
  | true => exact ⟨.leftParen, ks ++ [.rightParen], rfl, by simp⟩
  | false => exact h

theorem opens_literal (l : Literal) : Opens l.tokens := by
  unfold Literal.tokens
  split
  · refine ⟨l.bareToken, [], rfl, ?_⟩
    unfold Literal.bareToken
    split
    · simp
    · split
      · simp
      · split <;> simp
  · split
    · exact ⟨_, _, rfl, by simp⟩
    · exact ⟨_, _, rfl, by simp⟩
    · exact ⟨_, _, rfl, by simp⟩

theorem opens_term : ∀ t : Term, Opens t.tokens
  | .iri _ => ⟨_, _, rfl, by simp⟩
  | .literal l => opens_literal l
  | .free _ => ⟨_, _, rfl, by simp⟩
  | .bound _ value => opens_term value
  | .blank _ => ⟨_, _, rfl, by simp⟩

theorem opens_tokens (e : Expression) : Opens e.tokens := by
  cases e with
  | term t => exact opens_term t
  | binary op l r =>
    rw [Expression.tokens]
    exact ((opens_tokens l).parenthesize _).append _
  | unary op e => exact ⟨op.token, _, rfl, by cases op <;> simp [UnaryOp.token]⟩
  | call c es => exact ⟨c.token, _, rfl, by cases c <;> simp [Callee.token]⟩
  | isIn e es negated =>
    rw [Expression.tokens]
    exact ((opens_tokens e).parenthesize _).append _

theorem map_eq_self {f : Char → Char} {text : String} (h : ∀ c ∈ text.toList, f c = c) :
    text.map f = text := by
  rw [← String.toList_inj, String.toList_map, List.map_congr_left h, List.map_id']

theorem ofName_eq {name : String} (h : ∀ c ∈ name.toList, c.isLower = false) :
    Callee.ofName name = .builtin name := by
  refine congrArg Callee.builtin (map_eq_self fun c hc => dif_neg fun hlower => ?_)
  have hfalse : (decide ('a'.val ≤ c.val) && decide (c.val ≤ 'z'.val)) = false := h c hc
  rw [decide_eq_true hlower.1, decide_eq_true hlower.2] at hfalse
  cases hfalse

theorem tagged_eq {tag : String} (h : ∀ c ∈ tag.toList, c.isUpper = false) (lexical : String) :
    Literal.tagged lexical tag = ⟨lexical, none, some tag⟩ := by
  have hmap : tag.map Char.toLower = tag := map_eq_self fun c hc => dif_neg fun hupper => by
    have hfalse : decide ('A'.val ≤ c.val ∧ c.val ≤ 'Z'.val) = false := h c hc
    rw [decide_eq_true hupper] at hfalse
    cases hfalse
  rw [Literal.tagged, hmap]

theorem typed_eq {d : Iri} (h : d.text ≠ Vocabulary.xsdString) (lexical : String) :
    Literal.typed lexical d = ⟨lexical, some d, none⟩ := by
  rw [Literal.typed, if_neg h]

theorem calls_token {c : Callee} (hc : c.IsPlain) : Calls prefixes c.token c := by
  cases c with
  | builtin name =>
    have hword : Calls prefixes (.word name) (.ofName name) := .word name
    rwa [ofName_eq hc.2.1] at hword
  | iri i => exact .iri (.iriRef i.text)

theorem membership_tokens (negated : Bool) :
    Membership negated (Expression.membershipTokens negated) := by
  cases negated with
  | false => exact .isIn (by decide +kernel)
  | true => exact .notIn (by decide +kernel) (by decide +kernel)

theorem tokensOfAll_cons (e : Expression) (es : List Expression) :
    Expression.tokensOfAll (e :: es) =
      e.tokens ++ es.flatMap fun e => .comma :: e.tokens := by
  induction es generalizing e with
  | nil => simp [Expression.tokensOfAll]
  | cons e' es ih => rw [Expression.tokensOfAll, ih, List.flatMap_cons, List.cons_append]

theorem argumentTokens_tokens (es : List Expression) :
    argumentTokens (es.map Expression.tokens) =
      .leftParen :: (Expression.tokensOfAll es ++ [.rightParen]) := by
  cases es with
  | nil => rfl
  | cons e es => rw [List.map_cons, argumentTokens, tokensOfAll_cons, List.flatMap_map,
      List.append_assoc]

theorem stands_literal {l : Literal} (hl : l.IsPlain) : Stands prefixes l.tokens (.literal l) := by
  obtain ⟨lexical, datatype, language⟩ := l
  rw [Literal.tokens]
  split
  · rename_i hbare
    obtain rfl : language = none := by
      cases language with
      | none => rfl
      | some tag =>
        obtain rfl := (hl.language tag rfl).2
        cases hbare
    rcases Literal.isBare_iff.mp hbare with ⟨hd, _⟩ | ⟨hd, _⟩ | ⟨hd, _⟩ | ⟨hd, hform⟩
    all_goals obtain rfl := hd
    · exact typed_eq (d := ⟨Vocabulary.xsdInteger⟩) (by decide) lexical ▸ .integer lexical
    · exact typed_eq (d := ⟨Vocabulary.xsdDecimal⟩) (by decide) lexical ▸ .decimal lexical
    · exact typed_eq (d := ⟨Vocabulary.xsdDouble⟩) (by decide) lexical ▸ .double lexical
    · rcases hform with rfl | rfl
      · exact .boolean true
      · exact .boolean false
  · cases language with
    | some tag =>
      obtain ⟨htag, rfl⟩ := hl.language tag rfl
      have htagged : Stands prefixes [.string lexical (some tag)] (.literal (.tagged lexical tag)) :=
        .tagged lexical tag
      rwa [tagged_eq fun c hc => (htag.2.2 c hc).2] at htagged
    | none =>
      cases datatype with
      | some d =>
        have htyped : Stands prefixes [.string lexical none, .doubleCaret, .iriRef d.text]
            (.literal (.typed lexical d)) := .typed lexical (.iriRef d.text)
        rwa [typed_eq (hl.datatype d rfl).2] at htyped
      | none => exact .simple lexical

theorem stands_term {t : Term} (ht : t.IsPlain) : Stands prefixes t.tokens t := by
  cases t with
  | literal l => exact stands_literal ht
  | bound name value => cases ht
  | iri i => exact .iri (.iriRef i.text)
  | free name => exact .free name
  | blank n => exact .blank n.label

/-! ## Expressions -/

theorem length_le_parenthesizeTokens (needed : Bool) (ks : List TokenKind) :
    ks.length ≤ (Expression.parenthesizeTokens needed ks).length := by
  cases needed with
  | true => simp [Expression.parenthesizeTokens]; omega
  | false => exact Nat.le_refl _

theorem length_le_tokensOfAll {es : List Expression} (he : e ∈ es) :
    e.tokens.length ≤ (Expression.tokensOfAll es).length := by
  induction es with
  | nil => cases he
  | cons e' es ih =>
    rw [tokensOfAll_cons, List.length_append]
    rcases List.mem_cons.mp he with rfl | he
    · exact Nat.le_add_right _ _
    · refine Nat.le_trans (ih he) (Nat.le_trans ?_ (Nat.le_add_left _ _))
      cases es with
      | nil => cases he
      | cons e'' es =>
        rw [tokensOfAll_cons, List.flatMap_cons, List.length_append, List.length_append]
        exact Nat.add_le_add_right (Nat.le_succ _) _

/-- Whether the expression is plain and unchained. -/
def IsReadable (e : Expression) : Prop := e.IsPlain ∧ e.IsUnchained

theorem IsReadable.of_mem {P Q : Expression → Prop} {es : List Expression} (he : e ∈ es)
    (hes : Expression.EverywhereInAll P es ∧ Expression.EverywhereInAll Q es) :
    e.Everywhere P ∧ e.Everywhere Q :=
  ⟨Expression.everywhereInAll_iff.mp hes.1 e he, Expression.everywhereInAll_iff.mp hes.2 e he⟩

/-- An expression leads at its own level, if shorter ones can be read in parentheses. The proof is by
induction on the operands; an operand in parentheses and an argument are read by the nested reader. -/
theorem leads_expression {n : Nat}
    (hnested : ∀ e, IsReadable e → e.tokens.length < n → Reads nested 1 e.tokens e) :
    ∀ e, IsReadable e → e.tokens.length ≤ n → Leads s nested e.level e.tokens e
  | .term t, h, _ => leads_term (stands_term h.1)
  | .binary op l r, h, hn => by
    obtain ⟨⟨_, hpl, hpr⟩, hop, hul, hur⟩ := h
    have hlevel := op.level_mem
    have hlenl := length_le_parenthesizeTokens (l.level < op.level) l.tokens
    have hlenr := length_le_parenthesizeTokens (r.level ≤ op.level) r.tokens
    rw [Expression.tokens, List.length_append, List.length_cons] at hn
    have hleft := leads_expression hnested l ⟨hpl, hul⟩ (by omega)
    have hright : Reads (s.readFrom nested (op.level + 1)) (op.level + 1)
        (Expression.parenthesizeTokens (r.level ≤ op.level) r.tokens) r :=
      Leads.operand (fun _ => leads_expression hnested r ⟨hpr, hur⟩ (by omega))
        (fun _ => hnested r ⟨hpr, hur⟩ (by omega))
        (fun hneeded => Nat.lt_of_not_le (of_decide_eq_false hneeded)) (by omega) (by omega)
    rw [Expression.tokens]
    show Leads s nested op.level _ _
    by_cases hthree : op.level = 3
    · -- a comparison has no operand of its own level
      rw [hthree] at hright ⊢
      refine Reads.comparison hthree (Leads.operand (fun _ => hleft)
        (fun _ => hnested l ⟨hpl, hul⟩ (by omega)) (fun hneeded => ?_) (by omega) (by omega)) hright
      have hle := Nat.le_of_not_lt (of_decide_eq_false hneeded)
      have hne := hop hthree
      omega
    · exact Leads.binary hthree
        (hleft.leftOperand hthree fun _ => hnested l ⟨hpl, hul⟩ (by omega)) hright
  | .unary op e, h, hn => by
    have hlen := length_le_parenthesizeTokens (e.level < 6) e.tokens
    rw [Expression.tokens, List.length_cons] at hn
    rw [Expression.tokens]
    exact Reads.unary op (Leads.operand
      (fun _ => leads_expression hnested e ⟨h.1.2, h.2.2⟩ (by omega))
      (fun _ => hnested e ⟨h.1.2, h.2.2⟩ (by omega))
      (fun hneeded => Nat.le_of_not_lt (of_decide_eq_false hneeded)) (by omega) (by omega))
  | .call c es, h, hn => by
    rw [Expression.tokens, List.length_cons, List.length_cons, List.length_append] at hn
    rw [Expression.tokens, ← argumentTokens_tokens]
    have hcall := Reads.call (s := s) (calls_token h.1.1) (fun e he =>
      hnested e (.of_mem he ⟨h.1.2, h.2.2⟩) ?_) fun e _ => opens_tokens e
    · rwa [List.map_id'] at hcall
    have hlen := length_le_tokensOfAll he
    omega
  | .isIn e es negated, h, hn => by
    have hlen := length_le_parenthesizeTokens (e.level ≤ 3) e.tokens
    rw [Expression.tokens, List.length_append, List.length_append, List.length_cons,
      List.length_append] at hn
    rw [Expression.tokens, ← argumentTokens_tokens]
    have hisIn := Reads.isIn (Leads.operand
      (fun _ => leads_expression hnested e ⟨h.1.2.1, h.2.2.1⟩ (by omega))
      (fun _ => hnested e ⟨h.1.2.1, h.2.2.1⟩ (by omega))
      (fun hneeded => Nat.lt_of_not_le (of_decide_eq_false hneeded)) (by omega) (by omega))
      (membership_tokens negated)
      (fun e' he' => hnested e' (.of_mem he' ⟨h.1.2.2, h.2.2.2⟩) ?_) fun e' _ => opens_tokens e'
    · rwa [List.map_id'] at hisIn
    have hlen' := length_le_tokensOfAll he'
    omega

/-- As many levels of parentheses as there are tokens are enough. -/
theorem reads_within (n : Nat) (he : IsReadable e) (hn : e.tokens.length ≤ n) :
    Reads (s.readExpressionWithin n) 1 e.tokens e := by
  induction n generalizing e with
  | zero =>
    obtain ⟨kind, ls, htokens, _⟩ := opens_tokens e
    rw [htokens] at hn
    cases hn
  | succ n ih =>
    have hnested : ∀ e, IsReadable e → e.tokens.length < n + 1 →
        Reads (s.readExpressionWithin n) 1 e.tokens e :=
      fun e he hn => ih he (Nat.le_of_lt_succ hn)
    rw [readExpressionWithin, readLevels_eq]
    exact (leads_expression hnested e he hn).reads_from (Nat.le_refl 1) e.level_mem.1

/-- All tokens of an expression are read as the expression. -/
theorem readAll_readExpression {ts : List Token} (he : IsReadable e)
    (hts : ts.map Token.kind = e.tokens) : s.readAll s.readExpression ts = .ok e := by
  have hlength : e.tokens.length ≤ ts.length := by rw [← hts, List.length_map]
  have hread := reads_within (s := s) ts.length he hlength hts (stops_nil 1)
  rw [List.append_nil] at hread
  rw [readAll, readExpression, hread]
  rfl

end GraphPattern.Shorthand
