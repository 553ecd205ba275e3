import GraphPattern.Prefixes
import GraphPattern.Shorthand.Tokens

/-!
# Readers of tokens

A reader takes what it needs from the front of a list of tokens and returns the rest. Faults are
told at the next token, or at the end of the text if there is none.
-/

namespace GraphPattern.Shorthand

/-- What a reader has to know of its text: the declared prefixes, and the offset of the end. -/
structure Source where
  prefixes : Prefixes
  finish : Nat

/-- A reader of an `α`. -/
abbrev Reader (α : Type) := List Token → Except Fault (α × List Token)

/-- The form of the next token. -/
def nextKind (ts : List Token) : Option TokenKind := ts.head?.map Token.kind

namespace Source

/-- The place of the next token. -/
def here (s : Source) (ts : List Token) : Span := (ts.head?.map Token.span).getD (.point s.finish)

/-- A fault at the next token. -/
def fault {α : Type} (s : Source) (ts : List Token) (c : Complaint) : Except Fault α :=
  .error ⟨c, s.here ts⟩

/-- Takes a token that has to come next. -/
def expect (s : Source) (kind : ParseErrorKind) (wanted : TokenKind) (ts : List Token) :
    Except Fault (List Token) :=
  if nextKind ts = some wanted then .ok (ts.drop 1)
  else s.fault ts (.tokenExpected kind wanted (nextKind ts))

/-- The IRI of a prefixed name. An undeclared label is a fault at the label and its colon. -/
def expand (s : Source) (label name : String) (span : Span) : Except Fault Iri :=
  match s.prefixes.expand label name with
  | some iri => .ok iri
  | none =>
    .error ⟨.unknownPrefix label, ⟨span.start, span.start + Text.byteSize label.toList + 1⟩⟩

/-- Reads a whole list of tokens: nothing may be left over. -/
def readAll {α : Type} (s : Source) (reader : Reader α) (ts : List Token) : Except Fault α := do
  let (a, rest) ← reader ts
  match rest with
  | [] => .ok a
  | t :: _ => s.fault rest (.trailing t.kind)

end Source

end GraphPattern.Shorthand
