import GraphPattern.Proofs.Shorthand.Levels

/-!
# The grammar of expressions

What the tokens of an expression may be, told without a reader. An expression of a level is

    Or   := And ('||' And)*
    And  := Rel ('&&' Rel)*
    Rel  := Add | Add cmp Add | Add IN Args | Add NOT IN Args
    Add  := Mul (('+' | '-') Mul)*
    Mul  := Un (('*' | '/') Un)*
    Un   := ('!' | '-' | '+') Un | Prim
    Prim := '(' Or ')' | Term | (Iri | word) Args
    Args := '(' ')' | '(' Or (',' Or)* ')'

with the levels 1 to 7 from `Or` to `Prim` (`Derives`). What readers read is derived from the tokens that
they take (`Source.readExpressionWithin_sound`).
-/

namespace GraphPattern.Shorthand

open Steps

/-! ## Tokens by themselves -/

theorem exists_of_map_eq_singleton {ts : List Token} {kind : TokenKind}
    (h : ts.map Token.kind = [kind]) : ∃ span, ts = [⟨kind, span⟩] := by
  obtain ⟨⟨_, span⟩, _, rfl, rfl, hnil⟩ := List.map_eq_cons_iff.mp h
  obtain rfl := List.map_eq_nil_iff.mp hnil
  exact ⟨span, rfl⟩

/-- The tokens that stand for an IRI: one between angle brackets, or a name with a declared prefix. -/
inductive Names (prefixes : Prefixes) : TokenKind → Iri → Prop
  | iriRef (text : String) : Names prefixes (.iriRef text) ⟨text⟩
  | prefixedName {label name : String} {iri : Iri} (h : prefixes.expand label name = some iri) :
    Names prefixes (.prefixedName label name) iri

/-- The tokens that a call starts with: a word is the name of a function of the query language. -/
inductive Calls (prefixes : Prefixes) : TokenKind → Callee → Prop
  | word (text : String) : Calls prefixes (.word text) (.ofName text)
  | iri {kind : TokenKind} {iri : Iri} (h : Names prefixes kind iri) : Calls prefixes kind (.iri iri)

/-- The tokens that stand for a term. -/
inductive Stands (prefixes : Prefixes) : List TokenKind → Term → Prop
  | free (name : String) : Stands prefixes [.var name] (.free name)
  | iri {kind : TokenKind} {iri : Iri} (h : Names prefixes kind iri) :
    Stands prefixes [kind] (.iri iri)
  | blank (label : String) : Stands prefixes [.blankNode label] (.blank ⟨label⟩)
  | integer (text : String) :
    Stands prefixes [.integer text] (.literal (.typed text ⟨Vocabulary.xsdInteger⟩))
  | decimal (text : String) :
    Stands prefixes [.decimal text] (.literal (.typed text ⟨Vocabulary.xsdDecimal⟩))
  | double (text : String) :
    Stands prefixes [.double text] (.literal (.typed text ⟨Vocabulary.xsdDouble⟩))
  | simple (value : String) : Stands prefixes [.string value none] (.literal (.simple value))
  | tagged (value tag : String) :
    Stands prefixes [.string value (some tag)] (.literal (.tagged value tag))
  | typed (value : String) {kind : TokenKind} {iri : Iri} (h : Names prefixes kind iri) :
    Stands prefixes [.string value none, .doubleCaret, kind] (.literal (.typed value iri))
  | boolean (value : Bool) :
    Stands prefixes [.word (toString value)] (.literal (.boolean value))

/-- The words of a test for membership, or with `true` for its contrary, in whatever case their letters
are. -/
inductive Membership : Bool → List TokenKind → Prop
  | isIn {word : String} (h : word.map Char.toUpper = "IN") : Membership false [.word word]
  | notIn {first second : String} (hfirst : first.map Char.toUpper = "NOT")
    (hsecond : second.map Char.toUpper = "IN") : Membership true [.word first, .word second]

/-! ## Expressions -/

/-- The tokens of arguments: in parentheses, with commas between them. -/
def argumentTokens : List (List TokenKind) → List TokenKind
  | [] => [.leftParen, .rightParen]
  | ks :: kss => .leftParen :: (ks ++ (kss.flatMap (.comma :: ·) ++ [.rightParen]))

/-- Arguments keep the tokens of each one, and have two more. -/
theorem exists_of_mem_argumentTokens {ks : List TokenKind} {kss : List (List TokenKind)}
    (h : ks ∈ kss) :
    ∃ ls ls', argumentTokens kss = .leftParen :: (ls ++ (ks ++ (ls' ++ [.rightParen]))) := by
  cases kss with
  | nil => cases h
  | cons ls kss =>
    rcases List.mem_cons.mp h with rfl | h
    · exact ⟨[], kss.flatMap (.comma :: ·), rfl⟩
    · obtain ⟨before, after, rfl⟩ := List.append_of_mem h
      refine ⟨ls ++ before.flatMap (.comma :: ·) ++ [.comma], after.flatMap (.comma :: ·), ?_⟩
      simp [argumentTokens]

theorem mem_argumentTokens {kind : TokenKind} {ks : List TokenKind} {kss : List (List TokenKind)}
    (hkind : kind ∈ ks) (h : ks ∈ kss) : kind ∈ argumentTokens kss := by
  obtain ⟨ls, ls', htokens⟩ := exists_of_mem_argumentTokens h
  simp [htokens, hkind]

/-- Whether the tokens are those of the expression, at a level. Operators that follow one another are
grouped to the left: all before the last operator is its left operand. -/
inductive Derives (prefixes : Prefixes) : Nat → List TokenKind → Expression → Prop
  /-- What binds more tightly may stand at a looser level. -/
  | tighter {k : Nat} {ks : List TokenKind} {e : Expression} (hpos : 1 ≤ k) (hk : k ≤ 6)
    (h : Derives prefixes (k + 1) ks e) : Derives prefixes k ks e
  | chain {op : BinaryOp} {ks ls : List TokenKind} {l r : Expression} (hop : op.level ≠ 3)
    (hl : Derives prefixes op.level ks l) (hr : Derives prefixes (op.level + 1) ls r) :
    Derives prefixes op.level (ks ++ op.token :: ls) (.binary op l r)
  | comparison {op : BinaryOp} {ks ls : List TokenKind} {l r : Expression} (hop : op.level = 3)
    (hl : Derives prefixes 4 ks l) (hr : Derives prefixes 4 ls r) :
    Derives prefixes 3 (ks ++ op.token :: ls) (.binary op l r)
  /-- The candidates are pairs of an expression and its tokens. -/
  | isIn {negated : Bool} {ks ws : List TokenKind} {e : Expression}
    {parts : List (List TokenKind × Expression)} (he : Derives prefixes 4 ks e)
    (hws : Membership negated ws) (hparts : ∀ part ∈ parts, Derives prefixes 1 part.1 part.2) :
    Derives prefixes 3 (ks ++ (ws ++ argumentTokens (parts.map Prod.fst)))
      (.isIn e (parts.map Prod.snd) negated)
  | unary (op : UnaryOp) {ks : List TokenKind} {e : Expression} (h : Derives prefixes 6 ks e) :
    Derives prefixes 6 (op.token :: ks) (.unary op e)
  | parentheses {ks : List TokenKind} {e : Expression} (h : Derives prefixes 1 ks e) :
    Derives prefixes 7 (.leftParen :: (ks ++ [.rightParen])) e
  /-- The arguments are pairs of an expression and its tokens. -/
  | call {kind : TokenKind} {c : Callee} {parts : List (List TokenKind × Expression)}
    (hc : Calls prefixes kind c) (hparts : ∀ part ∈ parts, Derives prefixes 1 part.1 part.2) :
    Derives prefixes 7 (kind :: argumentTokens (parts.map Prod.fst))
      (.call c (parts.map Prod.snd))
  | term {ks : List TokenKind} {t : Term} (h : Stands prefixes ks t) :
    Derives prefixes 7 ks (.term t)

/-! ## What is read is derived -/

/-- Whether what a reader reads is in the relation to the tokens that it takes. -/
def Sound {α : Type} (D : List TokenKind → α → Prop) (r : Reader α) : Prop :=
  ∀ ⦃ts a rest⦄, r ts = .ok (a, rest) → ∃ us, ts = us ++ rest ∧ D (us.map Token.kind) a

/-- Whether the tokens are those of the arguments. -/
def IsArguments (prefixes : Prefixes) (ks : List TokenKind) (es : List Expression) : Prop :=
  ∃ parts : List (List TokenKind × Expression), (∀ part ∈ parts, Derives prefixes 1 part.1 part.2) ∧
    ks = argumentTokens (parts.map Prod.fst) ∧ es = parts.map Prod.snd

namespace Source

variable {s : Source} {nested operand : Reader Expression}

theorem exists_of_expect {kind : ParseErrorKind} {wanted : TokenKind} {ts rest : List Token}
    (h : s.expect kind wanted ts = .ok rest) : ∃ t, ts = t :: rest ∧ t.kind = wanted := by
  unfold expect at h
  split at h
  · rename_i hnext
    cases h
    cases ts with
    | nil => cases hnext
    | cons t ts => exact ⟨t, rfl, Option.some.inj hnext⟩
  · cases h

theorem exists_of_nextKind {kind : TokenKind} {ts : List Token} (h : nextKind ts = some kind) :
    ∃ t us, ts = t :: us ∧ t.kind = kind := by
  cases ts with
  | nil => cases h
  | cons t ts => exact ⟨t, ts, rfl, Option.some.inj h⟩

theorem asTerm_eq_ok {result : Except Fault (Literal × List Token)} {t : Term} {rest : List Token}
    (h : asTerm result = .ok (t, rest)) : ∃ l, result = .ok (l, rest) ∧ t = .literal l := by
  cases result with
  | error e => cases h
  | ok r =>
    cases h
    exact ⟨r.1, rfl, rfl⟩

/-! ### Arguments -/

theorem readMoreArguments_sound (hn : Sound (Derives s.prefixes 1) nested) (limit : Nat) :
    Sound (fun ks es => ∃ parts : List (List TokenKind × Expression),
      (∀ part ∈ parts, Derives s.prefixes 1 part.1 part.2) ∧
        ks = (parts.map Prod.fst).flatMap (.comma :: ·) ∧ es = parts.map Prod.snd)
      (readMoreArguments nested limit) := by
  induction limit with
  | zero =>
    intro ts es rest h
    cases h
    exact ⟨[], rfl, [], nofun, rfl, rfl⟩
  | succ limit ih =>
    intro ts es rest h
    rw [readMoreArguments] at h
    split at h
    · rename_i hcomma
      obtain ⟨⟨e, rest₁⟩, he, h⟩ := except_bind_eq_ok.mp h
      obtain ⟨⟨es', rest₂⟩, hes, h⟩ := except_bind_eq_ok.mp h
      cases h
      obtain ⟨t, ts, rfl, ht⟩ := exists_of_nextKind hcomma
      obtain ⟨us, rfl, hus⟩ := hn he
      obtain ⟨vs, rfl, parts, hparts, hvs, rfl⟩ := ih hes
      refine ⟨t :: (us ++ vs), by simp, (us.map Token.kind, e) :: parts,
        List.forall_mem_cons.mpr ⟨hus, hparts⟩, ?_, rfl⟩
      simp [ht, hvs]
    · cases h
      exact ⟨[], rfl, [], nofun, rfl, rfl⟩

theorem readArguments_sound (hn : Sound (Derives s.prefixes 1) nested) :
    Sound (IsArguments s.prefixes) (s.readArguments nested) := by
  intro ts es rest hread
  obtain ⟨ts', hopen, h⟩ := except_bind_eq_ok.mp hread
  obtain ⟨t, rfl, ht⟩ := exists_of_expect hopen
  split at h
  · rename_i hclose
    cases h
    obtain ⟨c, ts, rfl, hc⟩ := exists_of_nextKind hclose
    refine ⟨[t, c], rfl, [], nofun, ?_, rfl⟩
    simp [argumentTokens, ht, hc]
  · obtain ⟨⟨e, rest₁⟩, he, h⟩ := except_bind_eq_ok.mp h
    obtain ⟨⟨es', rest₂⟩, hes, h⟩ := except_bind_eq_ok.mp h
    obtain ⟨rest₃, hclose, h⟩ := except_bind_eq_ok.mp h
    cases h
    obtain ⟨us, rfl, hus⟩ := hn he
    obtain ⟨vs, rfl, parts, hparts, hvs, rfl⟩ := readMoreArguments_sound hn _ hes
    obtain ⟨c, rfl, hc⟩ := exists_of_expect hclose
    refine ⟨t :: (us ++ (vs ++ [c])), by simp, (us.map Token.kind, e) :: parts,
      List.forall_mem_cons.mpr ⟨hus, hparts⟩, ?_, rfl⟩
    simp [argumentTokens, ht, hc, hvs]

/-! ### Operands -/

theorem readIriOrCall_sound (hn : Sound (Derives s.prefixes 1) nested) {kind : TokenKind} {iri : Iri}
    (h : Names s.prefixes kind iri) :
    Sound (fun ks e => Derives s.prefixes 7 (kind :: ks) e) (s.readIriOrCall nested iri) := by
  intro ts e rest hread
  rw [readIriOrCall] at hread
  split at hread
  · obtain ⟨⟨es, _⟩, hes, hread⟩ := except_bind_eq_ok.mp hread
    cases hread
    obtain ⟨us, rfl, parts, hparts, hus, rfl⟩ := readArguments_sound hn hes
    exact ⟨us, rfl, hus ▸ .call (.iri h) hparts⟩
  · cases hread
    exact ⟨[], rfl, .term (.iri h)⟩

theorem readWord_sound (hn : Sound (Derives s.prefixes 1) nested) (word : String) (span : Span) :
    Sound (fun ks e => Derives s.prefixes 7 (.word word :: ks) e)
      (s.readWord nested word span) := by
  intro ts e rest h
  rw [readWord] at h
  split at h
  · obtain ⟨⟨es, _⟩, hes, h⟩ := except_bind_eq_ok.mp h
    cases h
    obtain ⟨us, rfl, parts, hparts, hus, rfl⟩ := readArguments_sound hn hes
    exact ⟨us, rfl, hus ▸ .call (.word word) hparts⟩
  · split at h
    · rename_i hword
      cases h
      exact ⟨[], rfl, hword ▸ .term (.boolean true)⟩
    · split at h
      · rename_i hword
        cases h
        exact ⟨[], rfl, hword ▸ .term (.boolean false)⟩
      · cases h

theorem expand_eq_ok {label name : String} {span : Span} {iri : Iri} :
    s.expand label name span = .ok iri ↔ s.prefixes.expand label name = some iri := by
  unfold expand
  split
  · rename_i hiri
    rw [hiri, Except.ok.injEq, Option.some.injEq]
  · rename_i hnone
    rw [hnone]
    exact iff_of_false nofun nofun

theorem readSuffix_sound (value : String) (language : Option String) :
    Sound (fun ks l => Stands s.prefixes (.string value language :: ks) (.literal l))
      (s.readSuffix value language) := by
  intro ts l rest h
  unfold readSuffix at h
  split at h
  · cases h
    exact ⟨[], rfl, .tagged value _⟩
  · split at h
    · cases h
      exact ⟨[_, _], rfl, .typed value (.iriRef _)⟩
    · obtain ⟨iri, hiri, h⟩ := except_bind_eq_ok.mp h
      cases h
      exact ⟨[_, _], rfl, .typed value (.prefixedName (expand_eq_ok.mp hiri))⟩
    · cases h
  · cases h
    exact ⟨[], rfl, .simple value⟩

theorem readPrimary_sound (hn : Sound (Derives s.prefixes 1) nested) :
    Sound (Derives s.prefixes 7) (s.readPrimary nested) := by
  intro ts e rest h
  cases ts with
  | nil => cases h
  | cons t ts =>
    obtain ⟨kind, span⟩ := t
    cases kind with
    | leftParen =>
      obtain ⟨⟨e', rest₁⟩, he, h⟩ := except_bind_eq_ok.mp h
      obtain ⟨rest₂, hclose, h⟩ := except_bind_eq_ok.mp h
      cases h
      obtain ⟨us, rfl, hus⟩ := hn he
      obtain ⟨c, rfl, hc⟩ := exists_of_expect hclose
      refine ⟨⟨.leftParen, span⟩ :: (us ++ [c]), by simp, ?_⟩
      simpa [hc] using Derives.parentheses hus
    | var name =>
      cases h
      exact ⟨[_], rfl, .term (.free name)⟩
    | iriRef iri =>
      obtain ⟨us, rfl, hus⟩ := readIriOrCall_sound hn (.iriRef iri) h
      exact ⟨_ :: us, rfl, hus⟩
    | prefixedName label name =>
      obtain ⟨iri, hiri, h⟩ := except_bind_eq_ok.mp h
      obtain ⟨us, rfl, hus⟩ := readIriOrCall_sound hn (.prefixedName (expand_eq_ok.mp hiri)) h
      exact ⟨_ :: us, rfl, hus⟩
    | word word =>
      obtain ⟨us, rfl, hus⟩ := readWord_sound hn word span h
      exact ⟨_ :: us, rfl, hus⟩
    | blankNode label =>
      cases h
      exact ⟨[_], rfl, .term (.blank label)⟩
    | string value language =>
      obtain ⟨⟨t, _⟩, ht, h⟩ := except_bind_eq_ok.mp h
      cases h
      obtain ⟨l, hl, rfl⟩ := asTerm_eq_ok ht
      obtain ⟨us, rfl, hus⟩ := readSuffix_sound value language hl
      exact ⟨_ :: us, rfl, .term hus⟩
    | integer text =>
      cases h
      exact ⟨[_], rfl, .term (String.empty_append (s := text) ▸ .integer text)⟩
    | decimal text =>
      cases h
      exact ⟨[_], rfl, .term (String.empty_append (s := text) ▸ .decimal text)⟩
    | double text =>
      cases h
      exact ⟨[_], rfl, .term (String.empty_append (s := text) ▸ .double text)⟩
    | _ => cases h

theorem readUnary_sound (ho : Sound (Derives s.prefixes 7) operand) :
    Sound (Derives s.prefixes 6) (readUnary operand) := by
  -- each operator in front takes one token
  intro ts
  induction ts with
  | nil =>
    intro e rest h
    obtain ⟨us, hts, hus⟩ := ho h
    exact ⟨us, hts, .tighter (by decide) (by decide) hus⟩
  | cons t ts ih =>
    intro e rest h
    rw [readUnary] at h
    split at h
    · rename_i op hop
      obtain ⟨⟨e', _⟩, he, h⟩ := except_bind_eq_ok.mp h
      cases h
      obtain ⟨us, rfl, hus⟩ := ih he
      refine ⟨t :: us, rfl, ?_⟩
      rw [List.map_cons, eq_token_of_unary? hop]
      exact .unary op hus
    · obtain ⟨us, hts, hus⟩ := ho h
      exact ⟨us, hts, .tighter (by decide) (by decide) hus⟩

/-! ### Operators between operands -/

/-- With what follows it, a left operand is an expression of the level. -/
theorem readChainFrom_sound {k : Nat} (hk : GroupsLeft k)
    (ho : Sound (Derives s.prefixes (k + 1)) operand) (limit : Nat) {left : Expression}
    {ks : List TokenKind} (hleft : Derives s.prefixes k ks left) :
    Sound (fun ls e => Derives s.prefixes k (ks ++ ls) e)
      (readChainFrom operand (operator? k) limit left) := by
  induction limit generalizing left ks with
  | zero =>
    intro ts e rest h
    cases h
    exact ⟨[], rfl, by simpa using hleft⟩
  | succ limit ih =>
    intro ts e rest hread
    rw [readChainFrom] at hread
    split at hread
    · rename_i op hop
      obtain ⟨⟨right, rest'⟩, hright, h⟩ := except_bind_eq_ok.mp hread
      obtain ⟨kind, hnext, hop⟩ := Option.bind_eq_some_iff.mp hop
      obtain ⟨rfl, rfl⟩ := eq_token_of_operator? hop
      obtain ⟨t, ts, rfl, ht⟩ := exists_of_nextKind hnext
      obtain ⟨us, rfl, hus⟩ := ho hright
      obtain ⟨vs, rfl, hvs⟩ := ih (.chain hk.ne_three hleft hus) h
      refine ⟨t :: (us ++ vs), by simp, ?_⟩
      simpa [ht] using hvs
    · cases hread
      exact ⟨[], rfl, by simpa using hleft⟩

theorem readChain_sound {k : Nat} (hk : GroupsLeft k)
    (ho : Sound (Derives s.prefixes (k + 1)) operand) :
    Sound (Derives s.prefixes k) (readChain operand (operator? k)) := by
  intro ts e rest hread
  obtain ⟨⟨left, rest'⟩, hleft, h⟩ := except_bind_eq_ok.mp hread
  obtain ⟨us, rfl, hus⟩ := ho hleft
  have hlevel := hk.level_mem
  obtain ⟨vs, rfl, hvs⟩ := readChainFrom_sound hk ho _
    (.tighter hlevel.1 (Nat.le_succ_of_le hlevel.2) hus) h
  exact ⟨us ++ vs, (List.append_assoc ..).symm, by rwa [List.map_append]⟩

theorem exists_of_nextIsKeyword {keyword : String} {ts : List Token}
    (h : nextIsKeyword keyword ts = true) :
    ∃ t us word, ts = t :: us ∧ t.kind = .word word ∧ word.map Char.toUpper = keyword := by
  cases ts with
  | nil => cases h
  | cons t ts =>
    obtain ⟨kind, span⟩ := t
    cases kind with
    | word word => exact ⟨_, ts, word, rfl, rfl, of_decide_eq_true h⟩
    | _ => cases h

theorem readRelational_sound {candidates : Reader (List Expression)}
    (ho : Sound (Derives s.prefixes 4) operand) (hc : Sound (IsArguments s.prefixes) candidates) :
    Sound (Derives s.prefixes 3) (readRelational operand candidates) := by
  intro ts e rest hread
  obtain ⟨⟨left, rest'⟩, hleft, h⟩ := except_bind_eq_ok.mp hread
  obtain ⟨us, rfl, hus⟩ := ho hleft
  dsimp only at h
  split at h
  · rename_i op hop
    obtain ⟨⟨right, _⟩, hright, h⟩ := except_bind_eq_ok.mp h
    cases h
    obtain ⟨kind, hnext, hop⟩ := Option.bind_eq_some_iff.mp hop
    obtain ⟨rfl, hlevel⟩ := eq_token_of_operator? (k := 3) hop
    obtain ⟨t, ts, rfl, ht⟩ := exists_of_nextKind hnext
    obtain ⟨vs, rfl, hvs⟩ := ho hright
    refine ⟨us ++ t :: vs, by simp, ?_⟩
    rw [List.map_append, List.map_cons, ht]
    exact .comparison hlevel hus hvs
  · split at h
    · rename_i hin
      obtain ⟨⟨es, _⟩, hes, h⟩ := except_bind_eq_ok.mp h
      cases h
      obtain ⟨t, ts, word, rfl, ht, hword⟩ := exists_of_nextIsKeyword hin
      obtain ⟨vs, rfl, parts, hparts, hvs, rfl⟩ := hc hes
      refine ⟨us ++ t :: vs, by simp, ?_⟩
      rw [List.map_append, List.map_cons, ht, hvs]
      exact .isIn hus (.isIn hword) hparts
    · split at h
      · rename_i hnot
        obtain ⟨hnot, hin⟩ := Bool.and_eq_true_iff.mp hnot
        obtain ⟨⟨es, _⟩, hes, h⟩ := except_bind_eq_ok.mp h
        cases h
        obtain ⟨t, ts, word, rfl, ht, hword⟩ := exists_of_nextIsKeyword hnot
        obtain ⟨t', ts, word', rfl, ht', hword'⟩ := exists_of_nextIsKeyword hin
        obtain ⟨vs, rfl, parts, hparts, hvs, rfl⟩ := hc hes
        refine ⟨us ++ t :: t' :: vs, by simp, ?_⟩
        rw [List.map_append, List.map_cons, List.map_cons, ht, ht', hvs]
        exact .isIn hus (.notIn hword hword') hparts
      · cases h
        exact ⟨us, rfl, .tighter (by decide) (by decide) hus⟩

/-- What the reader of a level reads is derived at the level. -/
theorem readFrom_sound (hn : Sound (Derives s.prefixes 1) nested) {k : Nat} (hpos : 1 ≤ k)
    (hk : k ≤ 7) : Sound (Derives s.prefixes k) (s.readFrom nested k) := by
  refine level_induction (P := fun k => Sound (Derives s.prefixes k) (s.readFrom nested k))
    (readPrimary_sound hn) readUnary_sound (fun k hk ho => ?_)
    (fun ho => readRelational_sound ho (readArguments_sound hn)) hpos hk
  rw [readFrom_of_groupsLeft s nested hk]
  exact readChain_sound hk ho

/-- What is read off tokens is derived from those of them that are taken. -/
theorem readExpressionWithin_sound (s : Source) (depth : Nat) :
    Sound (Derives s.prefixes 1) (s.readExpressionWithin depth) := by
  induction depth with
  | zero => nofun
  | succ depth ih => exact readFrom_sound ih (by decide) (by decide)

end Source

end GraphPattern.Shorthand
