import GraphPattern.Shorthand.ExpressionReader
import GraphPattern.Shorthand.PathReader

/-!
# Shorthand

Terms, paths, expressions and variables as they are written in a query, with white space around
them. `parse` functions read a text as it is; `resolve` functions trim it first, and tell of errors
in terms of the text that they were given.
-/

namespace GraphPattern.Shorthand

open Text

/-! ## Texts as they are -/

/-- Reads a whole text. -/
def read {α : Type} (reader : Source → Reader α) (prefixes : Prefixes) (cs : List Char) :
    Except Fault α := do
  let ts ← tokenize cs
  let source : Source := ⟨prefixes, ts.finish⟩
  source.readAll (reader source) ts.items

/-- Reads a whole text; errors hold the text. -/
def parse {α : Type} (reader : Source → Reader α) (prefixes : Prefixes) (text : String) :
    Except ParseError α :=
  (read reader prefixes text.toList).mapError (·.toError text)

/-- Reads a term. -/
def parseTerm (prefixes : Prefixes) (text : String) : Except ParseError Term :=
  parse Source.readTerm prefixes text

/-- Reads a path. -/
def parsePath (prefixes : Prefixes) (text : String) : Except ParseError Path :=
  parse Source.readPath prefixes text

/-- Reads an expression. -/
def parseExpression (prefixes : Prefixes) (text : String) : Except ParseError Expression :=
  parse Source.readExpression prefixes text

/-- Reads a variable. -/
def parseVariable (prefixes : Prefixes) (text : String) : Except ParseError Variable :=
  parse Source.readVariable prefixes text

/-! ## Texts with white space around them -/

/-- A text without the white space around it, and the offset at which it starts. A text of nothing
but white space is an error at its end. -/
def trimmed (token : String) : Except ParseError (String × Nat) :=
  let cs := token.toList
  let text := trimEnd (trimStart cs)
  if text.isEmpty then .error ((⟨.emptyText, .point (byteSize cs)⟩ : Fault).toError token)
  else .ok (String.ofList text, byteSize (cs.takeWhile isWhitespace))

/-- Applies a reader to the trimmed text. -/
def resolveWith {α : Type} (parser : String → Except ParseError α) (token : String) :
    Except ParseError α := do
  let (text, lead) ← trimmed token
  (parser text).mapError (·.within token lead)

/-- Whether a text is a plain literal: it starts with a letter, and it is neither a prefixed name
nor a call. -/
def isPlainText (text : String) : Bool :=
  text.toList.head?.any isAlphabetic && !text.toList.any fun c => [':', '(', ')'].contains c

/-- Resolves a term. A plain text is the term of the whole text as a word. -/
def resolveTerm (prefixes : Prefixes) (token : String) : Except ParseError Term :=
  resolveWith
    (fun text => if isPlainText text then .ok (wordTerm text) else parseTerm prefixes text) token

/-- Resolves a path. -/
def resolvePath (prefixes : Prefixes) (token : String) : Except ParseError Path :=
  resolveWith (parsePath prefixes) token

/-- Resolves an expression. -/
def resolveExpression (prefixes : Prefixes) (token : String) : Except ParseError Expression :=
  resolveWith (parseExpression prefixes) token

/-- Resolves a variable: a name, with or without its sigil. -/
def resolveVariable (token : String) : Except ParseError Variable :=
  resolveWith (parseVariable .empty) token

end GraphPattern.Shorthand
