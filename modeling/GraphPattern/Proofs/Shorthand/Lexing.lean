import GraphPattern.Proofs.Shorthand.Plain

/-!
# Cutting the text of an expression

The text of a plain and unsigned expression is cut into the tokens of the expression, whatever token
may follow it (`Expression.spells_render`). Operands end with a token after which `<` compares, and
begin where it does not, so it is an IRI there and a comparison between them.
-/

namespace GraphPattern

open Shorthand Text

namespace Shorthand

/-- Where an operand may stand, the text is cut into the tokens, and an operand may end with them. -/
def Spells (text : List Char) (ks : List TokenKind) : Prop :=
  ∀ rest, Breaks rest → kinds false (text ++ rest) = (kinds true rest).map (ks ++ ·)

variable {ks ls : List TokenKind} {text rest : List Char} {afterOperand : Bool}

/-! ## Signs around operands -/

theorem kinds_space (afterOperand : Bool) (rest : List Char) :
    kinds afterOperand (' ' :: rest) = kinds afterOperand rest :=
  kinds_cons_of_isWhitespace (by decide) afterOperand rest

theorem kinds_leftParen (afterOperand : Bool) (rest : List Char) :
    kinds afterOperand ('(' :: rest) = (kinds false rest).map (.leftParen :: ·) :=
  kinds_single rfl (by decide) nofun fun _ _ => rfl

theorem kinds_rightParen (afterOperand : Bool) (rest : List Char) :
    kinds afterOperand (')' :: rest) = (kinds true rest).map (.rightParen :: ·) :=
  kinds_single rfl (by decide) nofun fun _ _ => rfl

theorem kinds_comma (afterOperand : Bool) (rest : List Char) :
    kinds afterOperand (',' :: rest) = (kinds false rest).map (.comma :: ·) :=
  kinds_single rfl (by decide) nofun fun _ _ => rfl

/-- An operator between spaces, after an operand. -/
theorem kinds_binary (op : BinaryOp) (rest : List Char) :
    kinds true (' ' :: (op.symbol.toList ++ ' ' :: rest)) =
      (kinds false rest).map (op.token :: ·) := by
  rw [kinds_space]
  have hone : ∀ c k, single c = some k → k.endsOperand = false → c ≠ '?' →
      paired c ' ' = none →
      kinds true (c :: ' ' :: rest) = (kinds false rest).map (k :: ·) := by
    intro c k hk hend hq hpaired
    rw [kinds_single hk hq (fun _ => rfl) (by rintro d ⟨⟩; exact hpaired), kinds_space, hend]
  have htwo : ∀ c d k, paired c d = some k → k.endsOperand = false →
      kinds true (c :: d :: ' ' :: rest) = (kinds false rest).map (k :: ·) := by
    intro c d k hk hend
    rw [kinds_paired hk fun _ => rfl, kinds_space, hend]
  cases op with
  | or => exact htwo '|' '|' _ rfl rfl
  | and => exact htwo '&' '&' _ rfl rfl
  | eq => exact hone '=' _ rfl rfl (by decide) rfl
  | notEq => exact htwo '!' '=' _ rfl rfl
  | lt => exact hone '<' _ rfl rfl (by decide) rfl
  | gt => exact hone '>' _ rfl rfl (by decide) rfl
  | ltEq => exact htwo '<' '=' _ rfl rfl
  | gtEq => exact htwo '>' '=' _ rfl rfl
  | add => exact hone '+' _ rfl rfl (by decide) rfl
  | sub => exact hone '-' _ rfl rfl (by decide) rfl
  | mul => exact hone '*' _ rfl rfl (by decide) rfl
  | div => exact hone '/' _ rfl rfl (by decide) rfl

/-- An operator in front of an operand. Only before `=` would it be part of another one. -/
theorem kinds_unary (op : UnaryOp) (h : rest.head? ≠ some '=') :
    kinds afterOperand (op.symbol.toList ++ rest) = (kinds false rest).map (op.token :: ·) := by
  cases op with
  | not =>
    refine kinds_single (c := '!') rfl (by decide) nofun fun d hd => ?_
    have hne : d ≠ '=' := by
      rintro rfl
      exact h hd
    unfold paired
    split <;> first | rfl | simp_all
  | neg => exact kinds_single (c := '-') rfl (by decide) nofun fun _ _ => rfl
  | plus => exact kinds_single (c := '+') rfl (by decide) nofun fun _ _ => rfl

theorem kinds_unary_append (op : UnaryOp) (hne : text ≠ []) (hhead : text.head? ≠ some '=') :
    kinds afterOperand (op.symbol.toList ++ (text ++ rest)) =
      (kinds false (text ++ rest)).map (op.token :: ·) := by
  refine kinds_unary op ?_
  cases text with
  | nil => exact absurd rfl hne
  | cons c cs => exact hhead

/-! ## Texts that are put together -/

namespace Spells

/-- The text by itself is cut into the tokens. -/
theorem kinds_eq_some (h : Spells text ks) : kinds false text = some ks := by
  have hnil := h [] breaks_nil
  rwa [List.append_nil, kinds_nil, Option.map_some, List.append_nil] at hnil

theorem parenthesize {text : String} (h : Spells text.toList ks) (needed : Bool) :
    Spells (Expression.parenthesize needed text).toList
      (Expression.parenthesizeTokens needed ks) := by
  cases needed with
  | false => exact h
  | true =>
    intro rest hrest
    have hinner := h (')' :: rest) (breaks_cons (by decide))
    simp only [Expression.parenthesize, Expression.parenthesizeTokens, if_true,
      String.toList_append, List.append_assoc]
    show kinds false ('(' :: (text.toList ++ ')' :: rest)) = _
    rw [kinds_leftParen, hinner, kinds_rightParen]
    simp [Option.map_map, Function.comp_def]

theorem binary {left right : List Char} (hl : Spells left ks) (hr : Spells right ls)
    (op : BinaryOp) :
    Spells (left ++ ' ' :: (op.symbol.toList ++ ' ' :: right)) (ks ++ op.token :: ls) := by
  intro rest hrest
  simp only [List.append_assoc, List.cons_append]
  rw [hl _ (breaks_cons (by decide)), kinds_binary, hr rest hrest]
  simp [Option.map_map, Function.comp_def]

theorem unary (h : Spells text ks) (hne : text ≠ []) (hhead : text.head? ≠ some '=')
    (op : UnaryOp) : Spells (op.symbol.toList ++ text) (op.token :: ks) := by
  intro rest hrest
  rw [List.append_assoc, kinds_unary_append op hne hhead, h rest hrest]
  simp [Option.map_map, Function.comp_def]

end Spells

/-- Before a closing parenthesis, the text is cut into the tokens of a list. -/
def SpellsAll (text : List Char) (ks : List TokenKind) : Prop :=
  ∀ rest, kinds false (text ++ ')' :: rest) = (kinds true rest).map (ks ++ .rightParen :: ·)

theorem spellsAll_nil : SpellsAll [] [] := kinds_rightParen false

theorem Spells.all (h : Spells text ks) : SpellsAll text ks := by
  intro rest
  rw [h _ (breaks_cons (by decide)), kinds_rightParen]
  simp [Option.map_map, Function.comp_def]

theorem Spells.cons {more : List Char} (h : Spells text ks) (hmore : SpellsAll more ls) :
    SpellsAll (text ++ ',' :: ' ' :: more) (ks ++ .comma :: ls) := by
  intro rest
  rw [List.append_assoc, List.cons_append, List.cons_append, h _ (breaks_cons (by decide)),
    kinds_comma, kinds_space, hmore rest]
  simp [Option.map_map, Function.comp_def]

/-- A list in parentheses. -/
theorem SpellsAll.kinds_eq (h : SpellsAll text ks) (afterOperand : Bool) (rest : List Char) :
    kinds afterOperand ('(' :: (text ++ ')' :: rest)) =
      (kinds true rest).map (.leftParen :: (ks ++ [.rightParen]) ++ ·) := by
  rw [kinds_leftParen, h rest]
  simp [Option.map_map, Function.comp_def]

/-- A name that does not start like a number. -/
theorem kinds_name {word : String} (hname : IsName word)
    (hdigit : ∀ c ∈ word.toList.head?, c.isDigit = false) (afterOperand : Bool)
    (hrest : Breaks rest) :
    kinds afterOperand (word.toList ++ rest) = (kinds true rest).map (.word word :: ·) := by
  obtain ⟨hne, hall⟩ := hname
  cases hword : word.toList with
  | nil => exact absurd hword hne
  | cons d ds =>
    rw [hword] at hall hdigit
    obtain ⟨hd, hds⟩ := List.forall_mem_cons.mp hall
    rw [List.cons_append, kinds_word hd (hdigit d rfl) hds hrest, ← hword, String.ofList_toList]

theorem kinds_callee {c : Callee} (hc : c.IsPlain) (hrest : Breaks rest) :
    kinds false (c.render.toList ++ rest) = (kinds true rest).map (c.token :: ·) := by
  cases c with
  | builtin name =>
    obtain ⟨hname, _, hdigit⟩ := hc
    exact kinds_name hname hdigit false hrest
  | iri i =>
    simp only [Callee.render, Iri.render, String.toList_append, List.append_assoc]
    show kinds false ('<' :: (i.text.toList ++ '>' :: rest)) = _
    rw [kinds_iri hc, String.ofList_toList]
    rfl

theorem SpellsAll.call (h : SpellsAll text ks) {c : Callee} (hc : c.IsPlain) :
    Spells (c.render.toList ++ '(' :: (text ++ [')']))
      (c.token :: .leftParen :: (ks ++ [.rightParen])) := by
  intro rest hrest
  simp only [List.append_assoc, List.cons_append, List.nil_append]
  rw [kinds_callee hc (breaks_cons (by decide)), h.kinds_eq]
  simp [Option.map_map, Function.comp_def]

/-- The text between the operand of `IN` and its candidates. -/
def membershipText (negated : Bool) : List Char :=
  if negated then ' ' :: ("NOT".toList ++ ' ' :: ("IN".toList ++ [' ']))
  else ' ' :: ("IN".toList ++ [' '])

theorem kinds_membership (negated : Bool) (rest : List Char) :
    kinds true (membershipText negated ++ rest) =
      (kinds true rest).map (Expression.membershipTokens negated ++ ·) := by
  have hword : ∀ word : String, IsName word → (∀ c ∈ word.toList.head?, c.isDigit = false) →
      ∀ rest, kinds true (' ' :: (word.toList ++ ' ' :: rest)) =
        (kinds true (' ' :: rest)).map (.word word :: ·) := by
    intro word hname hdigit rest
    rw [kinds_space, kinds_name hname hdigit true (breaks_cons (by decide))]
  have hin := hword "IN" (by decide) (by rintro c ⟨⟩; rfl) rest
  rw [kinds_space _ rest] at hin
  cases negated with
  | false => exact hin
  | true =>
    have hnot := hword "NOT" (by decide) (by rintro c ⟨⟩; rfl) ("IN".toList ++ ' ' :: rest)
    rw [hin, Option.map_map] at hnot
    exact hnot

theorem breaks_membershipText (negated : Bool) (cs : List Char) :
    Breaks (membershipText negated ++ cs) := by
  cases negated <;> exact breaks_cons (by decide)

theorem Spells.isIn {candidates : List Char} (h : Spells text ks) (hc : SpellsAll candidates ls)
    (negated : Bool) :
    Spells (text ++ (membershipText negated ++ '(' :: (candidates ++ [')'])))
      (ks ++ (Expression.membershipTokens negated ++ .leftParen :: (ls ++ [.rightParen]))) := by
  intro rest hrest
  simp only [List.append_assoc, List.cons_append, List.nil_append]
  rw [h _ (breaks_membershipText negated _), kinds_membership, hc.kinds_eq]
  simp [Option.map_map, Function.comp_def]

end Shorthand

end GraphPattern
