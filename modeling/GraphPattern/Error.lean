/-!
# Errors

A call fails either because a shorthand text cannot be read (`ParseError`) or because the tree it
would build is not a pattern (`StructuralError`). Both are data; `message` holds all wording.
-/

namespace GraphPattern

/-- A range of byte offsets in a text, its end not included. -/
structure Span where
  start : Nat := 0
  finish : Nat := 0
deriving DecidableEq, Repr, Inhabited

namespace Span

/-- The empty range at one offset. -/
def point (offset : Nat) : Span := ⟨offset, offset⟩

/-- The range moved to the right. -/
def shift (s : Span) (bytes : Nat) : Span := ⟨s.start + bytes, s.finish + bytes⟩

/-- The two offsets with two dots between them. -/
def render (s : Span) : String := toString s.start ++ ".." ++ toString s.finish

end Span

/-- The categories of parse errors. -/
inductive ParseErrorKind where
  /-- A prefixed name uses a prefix without a namespace. -/
  | unknownPrefix
  /-- An IRI between angle brackets is not closed or holds a character it may not. -/
  | malformedIri
  /-- A quoted literal is not closed or has a wrong suffix. -/
  | malformedLiteral
  /-- A variable has no name. -/
  | malformedVariable
  /-- A path cannot be read. -/
  | malformedPath
  /-- A path uses an operator other than the slash. -/
  | unsupportedPath
  /-- An expression cannot be read. -/
  | malformedExpression
  /-- A token stands where it may not. -/
  | unexpectedToken
  /-- The text ends too early. -/
  | unexpectedEnd
deriving DecidableEq, Repr

/-- The words for a category. -/
def ParseErrorKind.text : ParseErrorKind → String
  | .unknownPrefix => "unknown prefix"
  | .malformedIri => "malformed IRI"
  | .malformedLiteral => "malformed literal"
  | .malformedVariable => "malformed variable"
  | .malformedPath => "malformed path"
  | .unsupportedPath => "unsupported path"
  | .malformedExpression => "malformed expression"
  | .unexpectedToken => "unexpected token"
  | .unexpectedEnd => "unexpected end of input"

/-- A shorthand text that cannot be read: the category, a sentence, and the place in the text. -/
structure ParseError where
  kind : ParseErrorKind
  detail : String
  span : Span := {}
  /-- The whole text that was to be read. -/
  token : String := ""
deriving DecidableEq, Repr

namespace ParseError

/-- An error found in a part of `token` that starts at `lead`, told of the whole. -/
def within (e : ParseError) (token : String) (lead : Nat) : ParseError :=
  { e with span := e.span.shift lead, token := token }

/-- The error as a user sees it. -/
def message (e : ParseError) : String :=
  e.kind.text ++ " at " ++ e.span.render ++ " in `" ++ e.token ++ "`: " ++ e.detail

end ParseError

/-- A call that would build something other than a pattern. -/
inductive StructuralError where
  /-- The target of a `BIND` is resolved already. -/
  | bindTargetResolved (name value : String)
  /-- A list without members has no head node. -/
  | emptyList
  /-- Every label that was tried is in use. -/
  | labelsExhausted (attempts : Nat)
  /-- A term that is not a variable stands where a variable must. -/
  | notAVariable (found : String)
deriving DecidableEq, Repr

/-- The error as a user sees it. -/
def StructuralError.message : StructuralError → String
  | .bindTargetResolved name value =>
    "cannot bind ?" ++ name ++ ": it is already resolved to " ++ value
  | .emptyList => "a list requires at least one term"
  | .labelsExhausted attempts =>
    "no blank node label unique within the query after " ++ toString attempts ++ " attempts"
  | .notAVariable found => "expected a variable, found " ++ found

/-- What a call can fail with. -/
inductive Error where
  | parse (e : ParseError)
  | structural (e : StructuralError)
deriving DecidableEq, Repr

/-- The error as a user sees it. -/
def Error.message : Error → String
  | .parse e => e.message
  | .structural e => e.message

end GraphPattern
