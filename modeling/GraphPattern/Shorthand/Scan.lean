import GraphPattern.Literal
import GraphPattern.Shorthand.Fault
import GraphPattern.Text.Numeric
import GraphPattern.Text.Whitespace

/-!
# One token

How one token is read off the front of a text that does not start with white space. A result keeps
the characters that were read, so that they and the rest are the text again.
-/

namespace GraphPattern.Shorthand

open Text

/-! ## Classes of characters -/

/-- Characters of variable names, labels and words. -/
def isNameChar (c : Char) : Bool := isAlphanumeric c || c = '_'

/-- Characters of the local part of a prefixed name. -/
def isLocalChar (c : Char) : Bool := isNameChar c || ['-', '.', ':', '%'].contains c

/-- Characters that an IRI between angle brackets may not hold, besides white space. -/
def iriExcluded : List Char := ['<', '>', '"', '{', '}', '|', '^', '\x60', '\\']

/-- Characters of an IRI between angle brackets. -/
def isIriChar (c : Char) : Bool := !isWhitespace c && !iriExcluded.contains c

/-- Characters of a language tag. -/
def isTagChar (c : Char) : Bool := c.isAlphanum || c = '-'

/-! ## Results -/

/-- A token, the characters that it was read from, and the text after them. -/
structure Scanned where
  kind : TokenKind
  lexeme : List Char
  rest : List Char
deriving DecidableEq, Repr

/-- A complaint about characters that were read. -/
structure ScanFault where
  complaint : Complaint
  lexeme : List Char
deriving DecidableEq, Repr

/-! ## Signs -/

/-- The sign of one character. -/
def single : Char → Option TokenKind
  | '(' => some .leftParen
  | ')' => some .rightParen
  | ',' => some .comma
  | '/' => some .slash
  | '|' => some .pipe
  | '^' => some .caret
  | '*' => some .star
  | '+' => some .plus
  | '-' => some .minus
  | '?' => some .question
  | '!' => some .bang
  | '=' => some .eq
  | '<' => some .lt
  | '>' => some .gt
  | _ => none

/-- The sign of two characters. -/
def paired : Char → Char → Option TokenKind
  | '^', '^' => some .doubleCaret
  | '&', '&' => some .and
  | '|', '|' => some .or
  | '!', '=' => some .notEq
  | '<', '=' => some .ltEq
  | '>', '=' => some .gtEq
  | _, _ => none

/-- The sign in front of a text. Two characters that form a sign are read together. -/
def scanSign (c : Char) (cs : List Char) : Option Scanned :=
  match cs.head?.bind (paired c) with
  | some k => some ⟨k, c :: cs.take 1, cs.drop 1⟩
  | none => (single c).map fun k => ⟨k, [c], cs⟩

/-! ## Names -/

/-- An IRI after its `<`. It has to be closed before any character that it may not hold. -/
def scanIri (cs : List Char) : Option Scanned :=
  let iri := cs.takeWhile isIriChar
  match cs.dropWhile isIriChar with
  | '>' :: rest => some ⟨.iriRef (String.ofList iri), '<' :: (iri ++ ['>']), rest⟩
  | _ => none

/-- A name after the sigil of a variable, where there is one. -/
def scanVariable (sigil : Char) (cs : List Char) : Option Scanned :=
  match cs.takeWhile isNameChar with
  | [] => none
  | name =>
    some ⟨.var (String.ofList name), sigil :: name, cs.dropWhile isNameChar⟩

/-- The text without the dots at its end. -/
def trimDots (cs : List Char) : List Char := (cs.reverse.dropWhile (· = '.')).reverse

/-- The local part of a prefixed name, after the label and the colon. Dots at its end belong to the
text around it. -/
def scanLocal (label cs : List Char) : Scanned :=
  let name := trimDots (cs.takeWhile isLocalChar)
  ⟨.prefixedName (String.ofList label) (String.ofList name), label ++ ':' :: name,
    cs.drop name.length⟩

/-- A word, or a prefixed name if a colon follows the word. -/
def scanWord (cs : List Char) : Scanned :=
  let word := cs.takeWhile isNameChar
  match cs.dropWhile isNameChar with
  | ':' :: rest => scanLocal word rest
  | rest => ⟨.word (String.ofList word), word, rest⟩

/-- The label of a blank node, after `_:`. -/
def scanLabel (cs : List Char) : Except ScanFault Scanned :=
  match cs.takeWhile isNameChar with
  | [] => .error ⟨.labelMissing, ['_', ':']⟩
  | label =>
    .ok ⟨.blankNode (String.ofList label), '_' :: ':' :: label, cs.dropWhile isNameChar⟩

/-! ## Numbers -/

/-- A point with digits after it, and the rest; nothing if there are no digits. -/
def splitFraction : List Char → List Char × List Char
  | '.' :: cs =>
    match cs.takeWhile Char.isDigit with
    | [] => ([], '.' :: cs)
    | digits => ('.' :: digits, cs.dropWhile Char.isDigit)
  | cs => ([], cs)

/-- A sign, and the rest. -/
def splitSign : List Char → List Char × List Char
  | '+' :: cs => (['+'], cs)
  | '-' :: cs => (['-'], cs)
  | cs => ([], cs)

/-- An exponent, and the rest; nothing if there are no digits after the letter and the sign. -/
def splitExponent : List Char → List Char × List Char
  | [] => ([], [])
  | c :: cs =>
    if isExponentMark c then
      match (splitSign cs).2.takeWhile Char.isDigit with
      | [] => ([], c :: cs)
      | digits => (c :: ((splitSign cs).1 ++ digits), (splitSign cs).2.dropWhile Char.isDigit)
    else ([], c :: cs)

/-- A number without a sign. Its parts decide what it is. -/
def scanNumber (cs : List Char) : Scanned :=
  let whole := cs.takeWhile Char.isDigit
  let fraction := splitFraction (cs.dropWhile Char.isDigit)
  let exponent := splitExponent fraction.2
  let text := whole ++ fraction.1 ++ exponent.1
  let kind : String → TokenKind :=
    if !exponent.1.isEmpty then .double else if !fraction.1.isEmpty then .decimal else .integer
  ⟨kind (String.ofList text), text, exponent.2⟩

/-! ## Strings -/

/-- The character that an escape stands for. -/
def unescape : Char → Option Char
  | 'n' => some '\n'
  | 't' => some '\t'
  | 'r' => some '\r'
  | '\\' => some '\\'
  | '"' => some '"'
  | '\x27' => some '\x27'
  | _ => none

/-- What follows an opening quote: the value, the characters up to and with the closing quote, and
the text after them. -/
structure StringBody where
  value : List Char
  lexeme : List Char
  rest : List Char
deriving DecidableEq, Repr

/-- A result for a text, from the result for what follows its first characters. -/
def prepend (read : List Char) (value : Char) :
    Except ScanFault StringBody → Except ScanFault StringBody
  | .ok body => .ok ⟨value :: body.value, read ++ body.lexeme, body.rest⟩
  | .error e => .error ⟨e.complaint, read ++ e.lexeme⟩

/-- The string after an opening quote. -/
def scanBody (quote : Char) : List Char → Except ScanFault StringBody
  | [] => .error ⟨.openString, []⟩
  | c :: cs =>
    if c = quote then .ok ⟨[], [c], cs⟩
    else if c = '\\' then
      match cs with
      | [] => .error ⟨.openEscape, [c]⟩
      | d :: ds =>
        match unescape d with
        | some u => prepend [c, d] u (scanBody quote ds)
        | none => .error ⟨.badEscape d, [c, d]⟩
    else prepend [c] c (scanBody quote cs)

/-- A string after its opening quote, with the language tag that may follow it. -/
def scanString (quote : Char) (cs : List Char) : Except ScanFault Scanned :=
  match scanBody quote cs with
  | .error e => .error ⟨e.complaint, quote :: e.lexeme⟩
  | .ok body =>
    let value := String.ofList body.value
    match body.rest with
    | '@' :: rest =>
      let tag := rest.takeWhile isTagChar
      let lexeme := quote :: (body.lexeme ++ '@' :: tag)
      if tag.isEmpty || tag.head? = some '-' then .error ⟨.languageMissing, lexeme⟩
      else .ok ⟨.string value (some (String.ofList tag)), lexeme, rest.dropWhile isTagChar⟩
    | rest => .ok ⟨.string value none, quote :: body.lexeme, rest⟩

/-! ## All tokens -/

/-- The token in front of a text that is not a variable, a sign or an IRI. -/
def scanOther (c : Char) (cs : List Char) : Except ScanFault Scanned :=
  if c = '&' then .error ⟨.loneAmpersand, [c]⟩
  else if c = '"' || c = '\x27' then scanString c cs
  else if c = '_' && cs.head? = some ':' then scanLabel (cs.drop 1)
  else if c = ':' then .ok (scanLocal [] cs)
  else if c.isDigit then .ok (scanNumber (c :: cs))
  else if isNameChar c then .ok (scanWord (c :: cs))
  else .error ⟨.strayCharacter c, [c]⟩

/-- The token in front of a text. After an operand `<` is a comparison; elsewhere it starts an IRI,
if the IRI is closed. -/
def scan (afterOperand : Bool) (c : Char) (cs : List Char) : Except ScanFault Scanned :=
  let name := if c = '?' || c = '$' then scanVariable c cs
    else if c = '<' && !afterOperand then scanIri cs
    else none
  match name.or (scanSign c cs) with
  | some s => .ok s
  | none => if c = '$' then .error ⟨.namelessDollar, [c]⟩ else scanOther c cs

end GraphPattern.Shorthand
