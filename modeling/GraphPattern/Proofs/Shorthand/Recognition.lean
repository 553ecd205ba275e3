import GraphPattern.Proofs.Shorthand.Reading

/-!
# The grammar is what is read

Tokens are read as an expression if and only if the grammar derives the expression from them
(`Source.readAll_readExpression_iff`). What is derived at a level is read by the reader of the level:
the induction is on the derivation, and a chain is read from its first operand on
(`Derives.isRecognized`). The bounds of the readers do not show, whether they succeed or fail: a
reader leaves no more tokens than there were, and takes one for each parenthesis, comma and operator
(`Source.agree_readExpressionWithin`, `Agree.readChainFrom_add`).
-/

namespace GraphPattern.Shorthand

open Steps Source

variable {s : Source} {prefixes : Prefixes} {k : Nat} {ks : List TokenKind} {e : Expression}

/-! ## What is derived is read -/

theorem Names.ne_rightParen {kind : TokenKind} {iri : Iri} (h : Names prefixes kind iri) :
    kind ≠ .rightParen := by
  cases h <;> nofun

theorem Calls.ne_rightParen {kind : TokenKind} {c : Callee} (h : Calls prefixes kind c) :
    kind ≠ .rightParen := by
  cases h with
  | word text => nofun
  | iri h => exact h.ne_rightParen

theorem Stands.opens {t : Term} (h : Stands prefixes ks t) : Opens ks := by
  cases h with
  | iri h => exact ⟨_, _, rfl, h.ne_rightParen⟩
  | _ => exact ⟨_, _, rfl, nofun⟩

/-- No expression starts with the end of a list. -/
theorem Derives.opens (h : Derives prefixes k ks e) : Opens ks := by
  induction h with
  | tighter _ _ _ ih => exact ih
  | chain _ _ _ ihl _ => exact ihl.append _
  | comparison _ _ _ ihl _ => exact ihl.append _
  | isIn _ _ _ ih _ => exact ih.append _
  | unary op _ _ => exact ⟨op.token, _, rfl, by cases op <;> nofun⟩
  | parentheses _ _ => exact ⟨_, _, rfl, nofun⟩
  | call hc _ _ => exact ⟨_, _, rfl, hc.ne_rightParen⟩
  | term h => exact h.opens

/-- Whether the tokens are read as the expression at the level, and in front of an operator that may
follow, by readers of as many levels of parentheses as there may be. -/
def IsRecognized (s : Source) (k : Nat) (ks : List TokenKind) (e : Expression) : Prop :=
  ∀ n, ks.length ≤ n + 1 → Reads (s.readFrom (s.readExpressionWithin n) k) k ks e ∧
    (GroupsLeft k → Leads s (s.readExpressionWithin n) k ks e)

namespace IsRecognized

/-- In parentheses, the reader of one level less is enough. -/
theorem nested (h : IsRecognized s 1 ks e) (hopens : Opens ks) {n : Nat} (hn : ks.length ≤ n) :
    Reads (s.readExpressionWithin n) 1 ks e := by
  obtain ⟨kind, ls, rfl, _⟩ := hopens
  cases n with
  | zero => cases hn
  | succ n => exact (h n hn).1

theorem arguments {parts : List (List TokenKind × Expression)}
    (h : ∀ part ∈ parts, IsRecognized s 1 part.1 part.2) (hopens : ∀ part ∈ parts, Opens part.1)
    {n : Nat} (hn : (argumentTokens (parts.map Prod.fst)).length ≤ n + 1) :
    ∀ part ∈ parts, Reads (s.readExpressionWithin n) 1 part.1 part.2 := by
  intro part hpart
  obtain ⟨ls, ls', htokens⟩ :=
    exists_of_mem_argumentTokens (List.mem_map_of_mem (f := Prod.fst) hpart)
  refine (h part hpart).nested (hopens part hpart) ?_
  rw [htokens] at hn
  simp at hn
  omega

end IsRecognized

/-- What is derived at a level is read at the level. -/
theorem Derives.isRecognized (h : Derives s.prefixes k ks e) : IsRecognized s k ks e := by
  induction h with
  | tighter hpos hk _ ih =>
    intro n hn
    have hreads := (ih n hn).1
    -- by itself, and as the first operand of a chain
    exact ⟨hreads.descend hpos hk, fun hk => hreads.leads hk⟩
  | chain hop _ _ ihl ihr =>
    intro n hn
    rw [List.length_append, List.length_cons] at hn
    have hleads := Leads.binary hop ((ihl n (by omega)).2 (groupsLeft_level hop))
      (ihr n (by omega)).1
    exact ⟨hleads.reads, fun _ => hleads⟩
  | comparison hop _ _ ihl ihr =>
    intro n hn
    rw [List.length_append, List.length_cons] at hn
    have hleads := Reads.comparison hop (ihl n (by omega)).1 (ihr n (by omega)).1
    exact ⟨hleads.reads, fun _ => hleads⟩
  | isIn _ hws hparts ih ihparts =>
    intro n hn
    rw [List.length_append, List.length_append] at hn
    have hopens := fun part hpart => (hparts part hpart).opens
    have hleads := Reads.isIn (ih n (by omega)).1 hws
      (IsRecognized.arguments ihparts hopens (by omega)) hopens
    exact ⟨hleads.reads, fun _ => hleads⟩
  | unary op _ ih =>
    intro n hn
    rw [List.length_cons] at hn
    have hleads := Reads.unary op (ih n (by omega)).1
    exact ⟨hleads.reads, fun _ => hleads⟩
  | parentheses h ih =>
    intro n hn
    rw [List.length_cons, List.length_append, List.length_singleton] at hn
    -- the parentheses are two tokens, so the nested reader still has levels enough
    have hreads : Reads (s.readExpressionWithin n) 1 _ _ := ih.nested h.opens (by omega)
    exact ⟨hreads.parenthesize 7, fun hseven => absurd hseven (by decide)⟩
  | call hc hparts ihparts =>
    intro n hn
    rw [List.length_cons] at hn
    have hopens := fun part hpart => (hparts part hpart).opens
    have hargs := IsRecognized.arguments ihparts hopens (n := n) (by omega)
    have hleads := Reads.call (s := s) hc hargs hopens
    exact ⟨hleads.reads, fun _ => hleads⟩
  | term h =>
    intro n _
    have hleads : Leads s (s.readExpressionWithin n) 7 _ _ := leads_term h
    exact ⟨hleads.reads, fun _ => hleads⟩

/-! ## The bounds of the readers -/

/-- Whether two readers read the same off lists of at most so many tokens, or fail alike. -/
def Agree {α : Type} (n : Nat) (r r' : Reader α) : Prop := ∀ ⦃ts⦄, ts.length ≤ n → r ts = r' ts

theorem Sound.length_le {α : Type} {D : List TokenKind → α → Prop} {r : Reader α} (h : Sound D r)
    {ts rest : List Token} {a : α} (hread : r ts = .ok (a, rest)) : rest.length ≤ ts.length := by
  obtain ⟨us, rfl, _⟩ := h hread
  rw [List.length_append]
  exact Nat.le_add_left _ _

theorem length_drop_le {ts : List Token} {n : Nat} (h : ts.length ≤ n) (i : Nat) :
    (ts.drop i).length ≤ n := by
  rw [List.length_drop]
  omega

namespace Agree

variable {nested nested' operand operand' : Reader Expression} {n : Nat}

theorem readMoreArguments (hn : Sound (Derives s.prefixes 1) nested) (h : Agree n nested nested')
    (limit : Nat) :
    Agree (n + 1) (readMoreArguments nested limit) (readMoreArguments nested' limit) := by
  induction limit with
  | zero => exact fun _ _ => rfl
  | succ limit ih =>
    intro ts hts
    rw [Source.readMoreArguments, Source.readMoreArguments]
    split
    · rename_i hcomma
      obtain ⟨t, us, rfl, _⟩ := exists_of_nextKind hcomma
      have hus : us.length ≤ n := Nat.le_of_succ_le_succ hts
      show (nested us >>= _) = (nested' us >>= _)
      rw [← h hus]
      refine except_bind_congr ?_
      rintro ⟨e, rest⟩ hread
      have hrest := Nat.le_trans (hn.length_le hread) (Nat.le_succ_of_le hus)
      show (Source.readMoreArguments nested limit rest >>= _) = _
      rw [ih hrest]
    · rfl

theorem readArguments (hn : Sound (Derives s.prefixes 1) nested) (h : Agree n nested nested') :
    Agree (n + 1) (s.readArguments nested) (s.readArguments nested') := by
  intro ts hts
  rw [Source.readArguments, Source.readArguments]
  refine except_bind_congr fun us hopen => ?_
  obtain ⟨t, rfl, _⟩ := exists_of_expect hopen
  have hus : us.length ≤ n := Nat.le_of_succ_le_succ hts
  split
  · rfl
  · rw [← h hus]
    refine except_bind_congr ?_
    rintro ⟨e, rest⟩ hread
    have hrest := Nat.le_trans (hn.length_le hread) (Nat.le_succ_of_le hus)
    show (Source.readMoreArguments nested rest.length rest >>= _) = _
    rw [Agree.readMoreArguments hn h _ hrest]

theorem readIriOrCall (hn : Sound (Derives s.prefixes 1) nested) (h : Agree n nested nested')
    (iri : Iri) : Agree (n + 1) (s.readIriOrCall nested iri) (s.readIriOrCall nested' iri) := by
  intro ts hts
  rw [Source.readIriOrCall, Source.readIriOrCall, Agree.readArguments hn h hts]

theorem readWord (hn : Sound (Derives s.prefixes 1) nested) (h : Agree n nested nested')
    (word : String) (span : Span) :
    Agree (n + 1) (s.readWord nested word span) (s.readWord nested' word span) := by
  intro ts hts
  rw [Source.readWord, Source.readWord, Agree.readArguments hn h hts]

theorem readPrimary (hn : Sound (Derives s.prefixes 1) nested) (h : Agree n nested nested') :
    Agree (n + 1) (s.readPrimary nested) (s.readPrimary nested') := by
  intro ts hts
  cases ts with
  | nil => rfl
  | cons t ts =>
    obtain ⟨kind, span⟩ := t
    have hrest : ts.length ≤ n := Nat.le_of_succ_le_succ hts
    cases kind with
    | leftParen =>
      show (nested ts >>= _) = (nested' ts >>= _)
      rw [h hrest]
    | iriRef iri => exact readIriOrCall hn h ⟨iri⟩ (Nat.le_succ_of_le hrest)
    | prefixedName label name =>
      refine except_bind_congr fun iri _ => ?_
      exact readIriOrCall hn h iri (Nat.le_succ_of_le hrest)
    | word word => exact readWord hn h word span (Nat.le_succ_of_le hrest)
    | _ => rfl

theorem readUnary (h : Agree n operand operand') :
    Agree n (readUnary operand) (readUnary operand') := by
  -- each operator in front leaves one token less
  intro ts hts
  induction ts with
  | nil => exact h hts
  | cons t ts ih =>
    rw [Source.readUnary, Source.readUnary, ih (Nat.le_of_succ_le hts), h hts]

section Chains

variable (ho : Sound (Derives s.prefixes k) operand) (h : Agree n operand operand')
  (op? : TokenKind → Option BinaryOp)
include ho h

theorem readChainFrom (limit : Nat) (left : Expression) :
    Agree n (readChainFrom operand op? limit left) (readChainFrom operand' op? limit left) := by
  induction limit generalizing left with
  | zero => exact fun _ _ => rfl
  | succ limit ih =>
    intro ts hts
    rw [Source.readChainFrom, Source.readChainFrom]
    split
    · rename_i op _
      have hdrop := length_drop_le hts 1
      rw [← h hdrop]
      refine except_bind_congr ?_
      rintro ⟨right, rest⟩ hread
      exact ih _ (Nat.le_trans (ho.length_le hread) hdrop)
    · rfl

theorem readChain : Agree n (readChain operand op?) (readChain operand' op?) := by
  intro ts hts
  rw [Source.readChain, Source.readChain, ← h hts]
  refine except_bind_congr ?_
  rintro ⟨left, rest⟩ hread
  exact readChainFrom ho h op? _ left (Nat.le_trans (ho.length_le hread) hts)

omit op? in
theorem readRelational {candidates candidates' : Reader (List Expression)}
    (hc : Agree n candidates candidates') :
    Agree n (readRelational operand candidates) (readRelational operand' candidates') := by
  intro ts hts
  rw [Source.readRelational, Source.readRelational, ← h hts]
  refine except_bind_congr ?_
  rintro ⟨left, rest⟩ hread
  have hrest := Nat.le_trans (ho.length_le hread) hts
  dsimp only
  rw [h (length_drop_le hrest 1), hc (length_drop_le hrest 1), hc (length_drop_le hrest 2)]

end Chains

/-- Readers of a level agree on one token more than their readers of what is in parentheses. -/
theorem readFrom (hn : Sound (Derives s.prefixes 1) nested) (h : Agree n nested nested')
    (hpos : 1 ≤ k) (hk : k ≤ 7) : Agree (n + 1) (s.readFrom nested k) (s.readFrom nested' k) := by
  have hstep : ∀ k, GroupsLeft k →
      Agree (n + 1) (s.readFrom nested (k + 1)) (s.readFrom nested' (k + 1)) →
        Agree (n + 1) (s.readFrom nested k) (s.readFrom nested' k) := by
    intro k hk ho
    rw [readFrom_of_groupsLeft s nested hk, readFrom_of_groupsLeft s nested' hk]
    have hlevel := hk.level_mem
    exact readChain (readFrom_sound hn (by omega) (by omega)) ho _
  exact level_induction (P := fun k => Agree (n + 1) (s.readFrom nested k) (s.readFrom nested' k))
    (readPrimary hn h) readUnary hstep
    (fun ho => readRelational (readFrom_sound hn (by decide) (by decide)) ho (readArguments hn h))
    hpos hk

/-- No more operators follow an operand than there are tokens. -/
theorem readChainFrom_add {D : List TokenKind → Expression → Prop} (ho : Sound D operand)
    (op? : TokenKind → Option BinaryOp) (extra : Nat) {limit : Nat} (left : Expression) :
    Agree limit (Source.readChainFrom operand op? (limit + extra) left)
      (Source.readChainFrom operand op? limit left) := by
  induction limit generalizing left with
  | zero =>
    intro ts hts
    obtain rfl := List.length_eq_zero_iff.mp (Nat.le_zero.mp hts)
    exact readChainFrom_of_none rfl _ left
  | succ limit ih =>
    intro ts hts
    rw [Nat.succ_add, Source.readChainFrom, Source.readChainFrom]
    split
    · refine except_bind_congr ?_
      rintro ⟨right, rest⟩ hread
      refine ih _ ?_
      have hrest := ho.length_le hread
      rw [List.length_drop] at hrest
      omega
    · rfl

/-- No more arguments follow one than there are tokens. -/
theorem readMoreArguments_add {D : List TokenKind → Expression → Prop} (hn : Sound D nested)
    (extra : Nat) {limit : Nat} :
    Agree limit (Source.readMoreArguments nested (limit + extra))
      (Source.readMoreArguments nested limit) := by
  induction limit with
  | zero =>
    intro ts hts
    obtain rfl := List.length_eq_zero_iff.mp (Nat.le_zero.mp hts)
    cases extra <;> rfl
  | succ limit ih =>
    intro ts hts
    rw [Nat.succ_add, Source.readMoreArguments, Source.readMoreArguments]
    split
    · refine except_bind_congr ?_
      rintro ⟨e, rest⟩ hread
      have hrest := hn.length_le hread
      rw [List.length_drop] at hrest
      show (Source.readMoreArguments nested (limit + extra) rest >>= _) = _
      rw [ih (by omega)]
    · rfl

end Agree

namespace Source

theorem agree_readExpressionWithin (s : Source) (extra n : Nat) :
    Agree n (s.readExpressionWithin (n + extra)) (s.readExpressionWithin n) := by
  induction n with
  | zero =>
    intro ts hts
    obtain rfl := List.length_eq_zero_iff.mp (Nat.le_zero.mp hts)
    cases extra <;> rfl
  | succ n ih =>
    rw [Nat.succ_add]
    exact Agree.readFrom (readExpressionWithin_sound s _) ih (Nat.le_refl 1) (by decide)

/-! ## Tokens as a whole -/

/-- All tokens are read as what is derived from them. -/
theorem readAll_of_derives {ts : List Token} (h : Derives s.prefixes 1 (ts.map Token.kind) e) :
    s.readAll s.readExpression ts = .ok e := by
  have hread := h.isRecognized.nested h.opens (n := ts.length) (by simp) rfl (stops_nil 1)
  rw [List.append_nil] at hread
  rw [readAll, readExpression, hread]
  rfl

/-- What all tokens are read as is derived from them. -/
theorem derives_of_readAll {ts : List Token} (hall : s.readAll s.readExpression ts = .ok e) :
    Derives s.prefixes 1 (ts.map Token.kind) e := by
  obtain ⟨⟨e', rest⟩, hread, h⟩ := except_bind_eq_ok.mp hall
  obtain ⟨us, rfl, hus⟩ := readExpressionWithin_sound _ _ hread
  cases rest with
  | nil =>
    cases h
    rwa [List.append_nil]
  | cons t rest => cases h

end Source

/-- No tokens are those of two expressions: one reader reads both. -/
theorem Derives.unique {e' : Expression} (h : Derives prefixes 1 ks e)
    (h' : Derives prefixes 1 ks e') : e = e' := by
  have hkinds : (ks.map fun kind => (⟨kind, {}⟩ : Token)).map Token.kind = ks := by
    rw [List.map_map]
    exact List.map_id ks
  rw [← hkinds] at h h'
  have hread := readAll_of_derives (s := ⟨prefixes, 0⟩) h
  rw [readAll_of_derives h'] at hread
  exact (Except.ok.inj hread).symm

/-- Whether a bound of as many as there are tokens is as good as none: higher ones change nothing. -/
def Saturates {α : Type} (r : Nat → Reader α) : Prop :=
  ∀ ts extra, r (ts.length + extra) ts = r ts.length ts

/-- No bound of the readers shows, on parentheses or on what follows an argument or an operand, so
reading comes to an end by itself; and all tokens are read as an expression exactly if the grammar
derives it from them. -/
theorem Source.readAll_readExpression_iff (s : Source) :
    (Saturates s.readExpressionWithin ∧
      ∀ depth, Saturates (readMoreArguments (s.readExpressionWithin depth)) ∧
        ∀ k left, GroupsLeft k → Saturates fun limit => readChainFrom
          (s.readFrom (s.readExpressionWithin depth) (k + 1)) (operator? k) limit left) ∧
      ∀ ts e, s.readAll s.readExpression ts = .ok e ↔
        Derives s.prefixes 1 (ts.map Token.kind) e := by
  constructor
  · refine ⟨fun ts extra => agree_readExpressionWithin s extra ts.length (Nat.le_refl _), ?_⟩
    intro depth
    have hnested := s.readExpressionWithin_sound depth
    refine ⟨fun ts extra => Agree.readMoreArguments_add hnested extra (Nat.le_refl _), ?_⟩
    intro k left hk ts extra
    have hlevel := hk.level_mem
    exact Agree.readChainFrom_add (readFrom_sound hnested (by omega) (by omega)) _ extra left
      (Nat.le_refl _)
  · intro ts e
    constructor
    · exact derives_of_readAll
    · exact readAll_of_derives

end GraphPattern.Shorthand
