import GraphPattern.Expression
import GraphPattern.Shorthand.TermReader

/-!
# Reading expressions

From loose to tight: `||`, `&&`, one comparison or `IN`, sums, products, operators in front of an
operand, and last the constants, variables, calls and parentheses. A level is built on the reader of
the next tighter one; operators of one level group to the left, and comparisons do not follow one
another.

Each level of parentheses takes a token, so the number of tokens bounds the depth.
-/

namespace GraphPattern.Shorthand

namespace TokenKind

/-- The operator between two disjuncts. -/
def disjunction? : TokenKind → Option BinaryOp
  | .or => some .or
  | _ => none

/-- The operator between two conjuncts. -/
def conjunction? : TokenKind → Option BinaryOp
  | .and => some .and
  | _ => none

/-- The operators between two sums. -/
def comparison? : TokenKind → Option BinaryOp
  | .eq => some .eq
  | .notEq => some .notEq
  | .lt => some .lt
  | .gt => some .gt
  | .ltEq => some .ltEq
  | .gtEq => some .gtEq
  | _ => none

/-- The operators between two products. -/
def additive? : TokenKind → Option BinaryOp
  | .plus => some .add
  | .minus => some .sub
  | _ => none

/-- The operators between two factors. -/
def multiplicative? : TokenKind → Option BinaryOp
  | .star => some .mul
  | .slash => some .div
  | _ => none

/-- The operators in front of an operand. -/
def unary? : TokenKind → Option UnaryOp
  | .bang => some .not
  | .minus => some .neg
  | .plus => some .plus
  | _ => none

/-- Whether the token is a word, in whatever case its letters are. -/
def isKeyword (keyword : String) : TokenKind → Bool
  | .word text => text.map Char.toUpper = keyword
  | _ => false

end TokenKind

/-- Whether the next token is a word, in whatever case its letters are. -/
def nextIsKeyword (keyword : String) (ts : List Token) : Bool :=
  (nextKind ts).any (TokenKind.isKeyword keyword)

namespace Source

variable (s : Source)

/-! ## Arguments -/

/-- The expressions that follow, each after a comma. The limit is the number of tokens. -/
def readMoreArguments (nested : Reader Expression) : Nat → Reader (List Expression)
  | 0, ts => .ok ([], ts)
  | limit + 1, ts =>
    if nextKind ts = some .comma then do
      let (e, rest) ← nested (ts.drop 1)
      let (es, rest) ← readMoreArguments nested limit rest
      .ok (e :: es, rest)
    else .ok ([], ts)

/-- Expressions in parentheses with commas between them. -/
def readArguments (nested : Reader Expression) : Reader (List Expression) := fun ts => do
  let ts ← s.expect .malformedExpression .leftParen ts
  if nextKind ts = some .rightParen then .ok ([], ts.drop 1)
  else do
    let (e, rest) ← nested ts
    let (es, rest) ← readMoreArguments nested rest.length rest
    let rest ← s.expect .malformedExpression .rightParen rest
    .ok (e :: es, rest)

/-! ## Operands -/

/-- An IRI: the name of a function if arguments follow, else a constant. -/
def readIriOrCall (nested : Reader Expression) (iri : Iri) : Reader Expression := fun ts =>
  if nextKind ts = some .leftParen then do
    let (args, rest) ← s.readArguments nested ts
    .ok (.call (.iri iri) args, rest)
  else .ok (.term (.iri iri), ts)

/-- A word at a place: the name of a function if arguments follow, else a truth value. -/
def readWord (nested : Reader Expression) (word : String) (span : Span) : Reader Expression :=
  fun ts =>
    if nextKind ts = some .leftParen then do
      let (args, rest) ← s.readArguments nested ts
      .ok (.call (.ofName word) args, rest)
    else if word = "true" then .ok (.term (.literal (.boolean true)), ts)
    else if word = "false" then .ok (.term (.literal (.boolean false)), ts)
    else .error ⟨.strayWord word, span⟩

/-- An operand: a constant, a variable, a call, or an expression in parentheses. -/
def readPrimary (nested : Reader Expression) : Reader Expression := fun ts =>
  match ts with
  | [] => s.fault ts .expressionMissing
  | ⟨kind, span⟩ :: rest =>
    match kind with
    | .leftParen => do
      let (e, rest) ← nested rest
      let rest ← s.expect .malformedExpression .rightParen rest
      .ok (e, rest)
    | .var name => .ok (.term (.free name), rest)
    | .iriRef iri => s.readIriOrCall nested ⟨iri⟩ rest
    | .prefixedName label name => do
      let iri ← s.expand label name span
      s.readIriOrCall nested iri rest
    | .string _ _ | .integer _ | .decimal _ | .double _ | .blankNode _ => do
      let (t, rest) ← s.readTerm ts
      .ok (.term t, rest)
    | .word word => s.readWord nested word span rest
    | other => s.fault ts (.expressionExpected other)

/-- An operand with any operators in front of it. -/
def readUnary (primary : Reader Expression) : Reader Expression
  | [] => primary []
  | t :: ts =>
    match t.kind.unary? with
    | some op => do
      let (e, rest) ← readUnary primary ts
      .ok (.unary op e, rest)
    | none => primary (t :: ts)

/-! ## Operators between operands -/

/-- The operators and operands that follow a left operand. The limit is the number of tokens. -/
def readChainFrom (operand : Reader Expression) (op? : TokenKind → Option BinaryOp) :
    Nat → Expression → Reader Expression
  | 0, left, ts => .ok (left, ts)
  | limit + 1, left, ts =>
    match (nextKind ts).bind op? with
    | some op => do
      let (right, rest) ← operand (ts.drop 1)
      readChainFrom operand op? limit (.binary op left right) rest
    | none => .ok (left, ts)

/-- Operands with operators of one level between them, grouped to the left. -/
def readChain (operand : Reader Expression) (op? : TokenKind → Option BinaryOp) :
    Reader Expression := fun ts => do
  let (left, rest) ← operand ts
  readChainFrom operand op? rest.length left rest

/-- One operand, two with a comparison between them, or one with `IN` or `NOT IN` and candidates. -/
def readRelational (operand : Reader Expression) (candidates : Reader (List Expression)) :
    Reader Expression := fun ts => do
  let (left, rest) ← operand ts
  match (nextKind rest).bind TokenKind.comparison? with
  | some op =>
    let (right, rest) ← operand (rest.drop 1)
    .ok (.binary op left right, rest)
  | none =>
    if nextIsKeyword "IN" rest then
      let (es, rest) ← candidates (rest.drop 1)
      .ok (.isIn left es false, rest)
    else if nextIsKeyword "NOT" rest && nextIsKeyword "IN" (rest.drop 1) then
      let (es, rest) ← candidates (rest.drop 2)
      .ok (.isIn left es true, rest)
    else .ok (left, rest)

/-- An expression whose parts in parentheses are read by `nested`. -/
def readLevels (nested : Reader Expression) : Reader Expression :=
  let product := readChain (readUnary (s.readPrimary nested)) TokenKind.multiplicative?
  let sum := readChain product TokenKind.additive?
  let relation := readRelational sum (s.readArguments nested)
  readChain (readChain relation TokenKind.conjunction?) TokenKind.disjunction?

/-- An expression with at most so many levels of parentheses. -/
def readExpressionWithin : Nat → Reader Expression
  | 0 => fun ts => s.fault ts .expressionMissing
  | depth + 1 => s.readLevels (readExpressionWithin depth)

/-- An expression. -/
def readExpression : Reader Expression := fun ts => s.readExpressionWithin ts.length ts

end Source

end GraphPattern.Shorthand
