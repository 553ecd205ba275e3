import GraphPattern.Shorthand.Token

/-!
# Faults in shorthand

What can be wrong with a shorthand text. A complaint is a cause, of which `kind` gives the category
and `detail` the sentence; a fault is a complaint at a place.
-/

namespace GraphPattern.Shorthand

/-- A cause for which a text cannot be read. -/
inductive Complaint where
  /-- One `&` where two are needed. -/
  | loneAmpersand
  /-- A `$` without a name. -/
  | namelessDollar
  /-- A `_:` without a label. -/
  | labelMissing
  /-- A character that starts no token. -/
  | strayCharacter (c : Char)
  /-- A string without a closing quote. -/
  | openString
  /-- A text that ends inside an escape. -/
  | openEscape
  /-- A backslash before a character that is not escaped. -/
  | badEscape (c : Char)
  /-- An `@` without a language tag. -/
  | languageMissing
  /-- Nothing but white space. -/
  | emptyText
  /-- Something other than a variable where one is needed. -/
  | variableExpected
  /-- A token after the end of what was to be read. -/
  | trailing (found : TokenKind)
  /-- The end of the text where a term is needed. -/
  | termMissing
  | termExpected (found : TokenKind)
  /-- A `<` that starts no IRI. -/
  | iriNotClosed
  /-- A `?` without a name. -/
  | namelessQuestion
  | datatypeExpected
  | numberExpected
  /-- A prefix label without a namespace. -/
  | unknownPrefix (label : String)
  /-- An operator of paths other than the slash. -/
  | pathOperator (symbol : String)
  /-- The end of the text where a step is needed. -/
  | stepMissing
  | predicateExpected (found : TokenKind)
  /-- A path without steps. -/
  | emptyPath
  /-- A token other than the one that a path or an expression needs here. -/
  | tokenExpected (kind : ParseErrorKind) (wanted : TokenKind) (found : Option TokenKind)
  /-- A word that is neither a function name nor a truth value. -/
  | strayWord (word : String)
  /-- The end of the text where an expression is needed. -/
  | expressionMissing
  | expressionExpected (found : TokenKind)
deriving DecidableEq, Repr

namespace Complaint

/-- The category of a complaint. -/
def kind : Complaint → ParseErrorKind
  | .loneAmpersand | .labelMissing | .strayCharacter _ | .trailing _ | .termExpected _ =>
    .unexpectedToken
  | .namelessDollar | .namelessQuestion | .variableExpected => .malformedVariable
  | .openString | .openEscape | .badEscape _ | .languageMissing | .datatypeExpected
  | .numberExpected => .malformedLiteral
  | .emptyText | .termMissing | .stepMissing | .expressionMissing => .unexpectedEnd
  | .iriNotClosed => .malformedIri
  | .unknownPrefix _ => .unknownPrefix
  | .pathOperator _ => .unsupportedPath
  | .predicateExpected _ | .emptyPath => .malformedPath
  | .tokenExpected kind _ _ => kind
  | .strayWord _ | .expressionExpected _ => .malformedExpression

/-- The sentence that tells of a complaint. -/
def detail : Complaint → String
  | .loneAmpersand => "expected '&&'"
  | .namelessDollar => "expected a variable name after '$'"
  | .labelMissing => "expected a blank node label after '_:'"
  | .strayCharacter c => "unexpected character '" ++ c.toString ++ "'"
  | .openString => "unterminated string literal"
  | .openEscape => "unterminated escape sequence"
  | .badEscape c => "invalid escape sequence '\\" ++ c.toString ++ "'"
  | .languageMissing => "expected a language tag after '@'"
  | .emptyText => "empty input"
  | .variableExpected => "expected a variable"
  | .trailing found => "unexpected trailing " ++ found.describe
  | .termMissing => "expected a term"
  | .termExpected found => "expected a term, found " ++ found.describe
  | .iriNotClosed =>
    "IRI reference is not terminated by '>' or contains illegal characters"
  | .namelessQuestion => "expected a variable name after '?'"
  | .datatypeExpected => "expected a datatype IRI after '^^'"
  | .numberExpected => "expected a number"
  | .unknownPrefix label => "no namespace registered for prefix '" ++ label ++ ":'"
  | .pathOperator symbol =>
    "path operator '" ++ symbol ++ "' is not supported; only '/' sequences are"
  | .stepMissing => "expected a path step"
  | .predicateExpected found => "expected a predicate, found " ++ found.describe
  | .emptyPath => "empty path"
  | .tokenExpected _ wanted found =>
    "expected " ++ wanted.describe ++ ", found " ++ describeNext found
  | .strayWord word => "unexpected word '" ++ word ++ "'"
  | .expressionMissing => "expected an expression"
  | .expressionExpected found => "expected an expression, found " ++ found.describe

end Complaint

/-- A complaint about a place in the text. -/
structure Fault where
  complaint : Complaint
  span : Span
deriving DecidableEq, Repr

/-- The fault as an error about the whole text. -/
def Fault.toError (f : Fault) (text : String) : ParseError :=
  ⟨f.complaint.kind, f.complaint.detail, f.span, text⟩

end GraphPattern.Shorthand
