import GraphPattern.Error
import GraphPattern.Text.Quoted

/-!
# Tokens of shorthand

The words and signs that shorthand is made of, each with its place in the text.
-/

namespace GraphPattern.Shorthand

/-- What a token is, with the part of its text that matters. -/
inductive TokenKind where
  /-- An IRI between angle brackets. -/
  | iriRef (iri : String)
  /-- A prefix label, a colon and a local name; either name may be empty. -/
  | prefixedName (label name : String)
  /-- A name after `?` or `$`. -/
  | var (name : String)
  /-- A label after `_:`. -/
  | blankNode (label : String)
  /-- The value of a quoted string, with its language tag if there is one. -/
  | string (value : String) (language : Option String)
  /-- Digits. -/
  | integer (text : String)
  /-- Digits with a point among them. -/
  | decimal (text : String)
  /-- A number with an exponent. -/
  | double (text : String)
  /-- A name by itself. -/
  | word (text : String)
  | leftParen | rightParen | comma
  | slash | pipe | caret | doubleCaret | star | plus | minus | question | bang
  | and | or | eq | notEq | lt | ltEq | gt | gtEq
deriving DecidableEq, Repr, Inhabited

namespace TokenKind

/-- The name of a form of token. -/
def name : TokenKind → String
  | .iriRef _ => "IriRef"
  | .prefixedName _ _ => "PrefixedName"
  | .var _ => "Var"
  | .blankNode _ => "BlankNode"
  | .string _ _ => "String"
  | .integer _ => "Integer"
  | .decimal _ => "Decimal"
  | .double _ => "Double"
  | .word _ => "Word"
  | .leftParen => "LParen"
  | .rightParen => "RParen"
  | .comma => "Comma"
  | .slash => "Slash"
  | .pipe => "Pipe"
  | .caret => "Caret"
  | .doubleCaret => "DoubleCaret"
  | .star => "Star"
  | .plus => "Plus"
  | .minus => "Minus"
  | .question => "Question"
  | .bang => "Bang"
  | .and => "And"
  | .or => "Or"
  | .eq => "Eq"
  | .notEq => "NotEq"
  | .lt => "Lt"
  | .ltEq => "LtEq"
  | .gt => "Gt"
  | .gtEq => "GtEq"

/-- How a message tells of a token: its name, and its text in quotes. -/
def describe (k : TokenKind) : String :=
  match k with
  | .prefixedName label rest =>
    k.name ++ " \x7b prefix: " ++ Text.quoted label ++ ", local: " ++ Text.quoted rest ++ " \x7d"
  | .string value language =>
    let tag := match language with
      | some l => "Some(" ++ Text.quoted l ++ ")"
      | none => "None"
    k.name ++ " \x7b value: " ++ Text.quoted value ++ ", lang: " ++ tag ++ " \x7d"
  | .iriRef s | .var s | .blankNode s | .integer s | .decimal s | .double s | .word s =>
    k.name ++ "(" ++ Text.quoted s ++ ")"
  | _ => k.name

/-- Whether an operand can end with the token. A `<` after such a token compares; it does not start
an IRI. -/
def endsOperand : TokenKind → Bool
  | .iriRef _ | .prefixedName _ _ | .var _ | .blankNode _ | .string _ _ | .integer _ | .decimal _
  | .double _ | .word _ | .rightParen => true
  | _ => false

end TokenKind

/-- A token with its place in the text. -/
structure Token where
  kind : TokenKind
  span : Span
deriving DecidableEq, Repr, Inhabited

/-- The name of the end of a text, which stands after the last token. -/
def endName : String := "Eof"

/-- How a message tells of the next token, or of the end of the text. -/
def describeNext : Option TokenKind → String
  | some k => k.describe
  | none => endName

end GraphPattern.Shorthand
