import GraphPattern.Proofs.Shorthand.Spelling

/-!
# Plain expressions

An expression is plain if its names, tags and IRIs are made of the characters that shorthand allows
there, and none of its variables carries a value. It is unsigned if the numbers that it writes
without quotes have no sign and no bare point, and unchained if no comparison has another one, or an
`IN`, as its left operand. `Expression.tokens` lists the tokens that the text of an expression has.
-/

namespace GraphPattern

open Shorthand

/-! ## Names and literals -/

/-- Whether the text is made of letters, digits and underscores, at least one. -/
def IsName (text : String) : Prop :=
  text.toList ≠ [] ∧ ∀ c ∈ text.toList, isNameChar c = true

/-- Whether the text is made of lower-case letters, digits and hyphens, the first no hyphen. -/
def IsTag (text : String) : Prop :=
  text.toList ≠ [] ∧ text.toList.head? ≠ some '-' ∧
    ∀ c ∈ text.toList, isTagChar c = true ∧ c.isUpper = false

/-- Whether the IRI can stand between angle brackets. -/
def Iri.IsPlain (iri : Iri) : Prop := ∀ c ∈ iri.text.toList, isIriChar c = true

instance (text : String) : Decidable (IsName text) :=
  decidable_of_iff (text.toList ≠ [] ∧ text.toList.all isNameChar = true) (by
    rw [IsName, List.all_eq_true])

instance (text : String) : Decidable (IsTag text) :=
  decidable_of_iff (text.toList ≠ [] ∧ text.toList.head? ≠ some '-' ∧
    text.toList.all (fun c => isTagChar c && !c.isUpper) = true) (by simp [IsTag])

instance (iri : Iri) : Decidable iri.IsPlain :=
  decidable_of_iff (iri.text.toList.all isIriChar = true) List.all_eq_true

namespace IsName

variable {name : String} (h : IsName name)
include h

/-- A name does not start with a sigil. -/
theorem toList_ne_cons {c : Char} (hc : isNameChar c = false) (cs : List Char) :
    name.toList ≠ c :: cs := by
  intro hname
  have hchar : isNameChar c = true := h.2 c (hname ▸ List.mem_cons_self)
  exact Bool.false_ne_true (hc.symm.trans hchar)

theorem variable_ofText : Variable.ofText name = ⟨name, none⟩ := by
  have hstrip : Variable.stripSigil name = name := by
    unfold Variable.stripSigil
    split
    · rename_i rest hname
      exact absurd hname (h.toList_ne_cons (by decide) rest)
    · rename_i rest hname
      exact absurd hname (h.toList_ne_cons (by decide) rest)
    · rfl
  rw [Variable.ofText, hstrip]

/-- An underscore may stand in front of a name, but no colon comes after it. -/
theorem blankNode_ofText : BlankNode.ofText name = ⟨name⟩ := by
  unfold BlankNode.ofText
  split
  · rename_i rest hname
    have hcolon : isNameChar ':' = true := h.2 ':' (by simp [hname])
    exact absurd hcolon (by decide)
  · rfl

end IsName

/-- The datatypes of the literals that may be written without quotes. -/
theorem isPlain_datatypes :
    ∀ text ∈ [Vocabulary.xsdInteger, Vocabulary.xsdDecimal, Vocabulary.xsdDouble,
      Vocabulary.xsdBoolean], Iri.IsPlain ⟨text⟩ ∧ text ≠ Vocabulary.xsdString := by
  decide +kernel

/-- Whether the text is digits with or without a fraction and an exponent. -/
def IsNumber (cs : List Char) : Prop :=
  ∃ whole fraction exponent, cs = whole ++ fraction ++ exponent ∧ isDigits whole = true ∧
    IsFraction fraction ∧ IsExponent exponent

namespace Literal

/-- A literal with a language tag or a datatype or neither, which shorthand can name. -/
structure IsPlain (l : Literal) : Prop where
  language : ∀ tag, l.language = some tag → IsTag tag ∧ l.datatype = none
  datatype : ∀ d, l.datatype = some d → d.IsPlain ∧ d.text ≠ Vocabulary.xsdString

theorem isPlain_simple (lexical : String) : (simple lexical).IsPlain where
  language := nofun
  datatype := nofun

theorem isPlain_typed {datatype : Iri} (h : datatype.IsPlain) (lexical : String) :
    (typed lexical datatype).IsPlain where
  language := nofun
  datatype d hd := by
    by_cases hstring : datatype.text = Vocabulary.xsdString
    · simp [typed, hstring] at hd
    · simp only [typed, hstring, if_false, Option.some.injEq] at hd
      exact hd ▸ ⟨h, hstring⟩

theorem isPlain_tagged {language : String} (h : IsTag (language.map Char.toLower))
    (lexical : String) : (tagged lexical language).IsPlain where
  language tag htag := by
    cases htag
    exact ⟨h, rfl⟩
  datatype := nofun

/-- Whether the literal is in quotes, or a truth value or a number without a sign. -/
def IsUnsigned (l : Literal) : Prop :=
  l.isBare = true → l.lexical = "true" ∨ l.lexical = "false" ∨ IsNumber l.lexical.toList

end Literal

/-! ## Expressions -/

/-- Whether the term is an IRI, a literal, a free variable or a blank node that shorthand can name. -/
def Term.IsPlain : Term → Prop
  | .iri i => i.IsPlain
  | .literal l => l.IsPlain
  | .free name => IsName name
  | .bound _ _ => False
  | .blank n => IsName n.label

/-- Whether what is called is an IRI, or a name in upper case that does not start with a digit. -/
def Callee.IsPlain : Callee → Prop
  | .builtin name => IsName name ∧ (∀ c ∈ name.toList, c.isLower = false) ∧
      ∀ c ∈ name.toList.head?, c.isDigit = false
  | .iri i => i.IsPlain

instance : (c : Callee) → Decidable c.IsPlain
  | .builtin name =>
    decidable_of_iff (IsName name ∧ name.toList.all (!·.isLower) = true ∧
      name.toList.head?.all (!·.isDigit) = true) (by
        simp [Callee.IsPlain, Option.all_eq_true])
  | .iri i => inferInstanceAs (Decidable i.IsPlain)

namespace Expression

mutual

/-- Whether the expression and all its parts have a property. -/
def Everywhere (P : Expression → Prop) : Expression → Prop
  | .term t => P (.term t)
  | .binary op l r => P (.binary op l r) ∧ Everywhere P l ∧ Everywhere P r
  | .unary op e => P (.unary op e) ∧ Everywhere P e
  | .call c es => P (.call c es) ∧ EverywhereInAll P es
  | .isIn e es negated => P (.isIn e es negated) ∧ Everywhere P e ∧ EverywhereInAll P es

/-- Whether the expressions and all their parts have a property. -/
def EverywhereInAll (P : Expression → Prop) : List Expression → Prop
  | [] => True
  | e :: es => Everywhere P e ∧ EverywhereInAll P es

end

theorem everywhereInAll_iff {P : Expression → Prop} {es : List Expression} :
    EverywhereInAll P es ↔ ∀ e ∈ es, e.Everywhere P := by
  induction es with
  | nil => simp [EverywhereInAll]
  | cons e es ih => rw [EverywhereInAll, ih, List.forall_mem_cons]

/-- Whether all terms are plain, and all that is called. -/
def IsPlain (e : Expression) : Prop :=
  e.Everywhere fun
    | .term t => t.IsPlain
    | .call c _ => c.IsPlain
    | _ => True

/-- Whether all literals are unsigned. -/
def IsUnsigned (e : Expression) : Prop :=
  e.Everywhere fun
    | .term (.literal l) => l.IsUnsigned
    | _ => True

/-- Whether no left operand of a comparison is a comparison or an `IN`. -/
def IsUnchained (e : Expression) : Prop :=
  e.Everywhere fun
    | .binary op l _ => op.level = 3 → l.level ≠ 3
    | _ => True

end Expression

/-! ## Tokens -/

/-- The token of an operator between two operands. -/
def BinaryOp.token : BinaryOp → TokenKind
  | .or => .or
  | .and => .and
  | .eq => .eq
  | .notEq => .notEq
  | .lt => .lt
  | .gt => .gt
  | .ltEq => .ltEq
  | .gtEq => .gtEq
  | .add => .plus
  | .sub => .minus
  | .mul => .star
  | .div => .slash

/-- The token of an operator in front of an operand. -/
def UnaryOp.token : UnaryOp → TokenKind
  | .not => .bang
  | .neg => .minus
  | .plus => .plus

/-- The token of what is called. -/
def Callee.token : Callee → TokenKind
  | .builtin name => .word name
  | .iri i => .iriRef i.text

namespace Literal

/-- The token of a literal that is written without quotes. -/
def bareToken (l : Literal) : TokenKind :=
  if l.datatype = some ⟨Vocabulary.xsdInteger⟩ then .integer l.lexical
  else if l.datatype = some ⟨Vocabulary.xsdDecimal⟩ then .decimal l.lexical
  else if l.datatype = some ⟨Vocabulary.xsdDouble⟩ then .double l.lexical
  else .word l.lexical

/-- The tokens of a literal: one if it is written without quotes, else a string and its datatype. -/
def tokens (l : Literal) : List TokenKind :=
  if l.isBare then [l.bareToken]
  else
    match l.language, l.datatype with
    | some tag, _ => [.string l.lexical (some tag)]
    | none, some d => [.string l.lexical none, .doubleCaret, .iriRef d.text]
    | none, none => [.string l.lexical none]

end Literal

/-- The tokens of a term. -/
def Term.tokens : Term → List TokenKind
  | .iri i => [.iriRef i.text]
  | .literal l => l.tokens
  | .free name => [.var name]
  | .bound _ value => value.tokens
  | .blank n => [.blankNode n.label]

namespace Expression

/-- The tokens, in parentheses if they are needed. -/
def parenthesizeTokens (needed : Bool) (ks : List TokenKind) : List TokenKind :=
  if needed then .leftParen :: (ks ++ [.rightParen]) else ks

/-- The tokens of `IN` or of `NOT IN`. -/
def membershipTokens (negated : Bool) : List TokenKind :=
  if negated then [.word "NOT", .word "IN"] else [.word "IN"]

mutual

/-- The tokens of the text of an expression. -/
def tokens : Expression → List TokenKind
  | .term t => t.tokens
  | .binary op l r =>
    parenthesizeTokens (l.level < op.level) (tokens l) ++
      op.token :: parenthesizeTokens (r.level ≤ op.level) (tokens r)
  | .unary op e => op.token :: parenthesizeTokens (e.level < 6) (tokens e)
  | .call c es => c.token :: .leftParen :: (tokensOfAll es ++ [.rightParen])
  | .isIn e es negated =>
    parenthesizeTokens (e.level ≤ 3) (tokens e) ++
      (membershipTokens negated ++ .leftParen :: (tokensOfAll es ++ [.rightParen]))

/-- The tokens of a list of expressions with commas between them. -/
def tokensOfAll : List Expression → List TokenKind
  | [] => []
  | [e] => tokens e
  | e :: e' :: es => tokens e ++ .comma :: tokensOfAll (e' :: es)

end

end Expression

end GraphPattern
