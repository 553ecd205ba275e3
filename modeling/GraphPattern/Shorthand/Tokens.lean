import GraphPattern.Shorthand.Scan
import GraphPattern.Text.Offset

/-!
# The tokens of a text

A text is cut into tokens with white space between them. Whether a `<` compares depends on the token
before it, and on nothing else.
-/

namespace GraphPattern.Shorthand

open Text

/-- The tokens of a text, and the offset at which the text ends. -/
structure Tokens where
  items : List Token
  finish : Nat
deriving DecidableEq, Repr

/-- Cuts a text that starts at an offset. The limit is a number of tokens; a text has no more tokens
than characters. -/
def tokenizeFrom : Nat → Bool → Nat → List Char → Except Fault Tokens
  | 0, _, offset, _ => .ok ⟨[], offset⟩
  | limit + 1, afterOperand, offset, cs =>
    let start := offset + byteSize (cs.takeWhile isWhitespace)
    match cs.dropWhile isWhitespace with
    | [] => .ok ⟨[], start⟩
    | c :: cs =>
      match scan afterOperand c cs with
      | .error e => .error ⟨e.complaint, ⟨start, start + byteSize e.lexeme⟩⟩
      | .ok s =>
        let finish := start + byteSize s.lexeme
        match tokenizeFrom limit s.kind.endsOperand finish s.rest with
        | .error e => .error e
        | .ok ts => .ok ⟨⟨s.kind, ⟨start, finish⟩⟩ :: ts.items, ts.finish⟩

/-- The tokens of a text. -/
def tokenize (cs : List Char) : Except Fault Tokens :=
  tokenizeFrom cs.length false 0 cs

end GraphPattern.Shorthand
