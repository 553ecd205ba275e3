import GraphPattern.Iri

/-!
# Literals

A literal is a lexical form with a datatype or a language tag, or with neither, which makes it a
simple string. Numbers and truth values in their plain form are written without quotes; `isBare`
says which these are. All other lexical forms are written between quotes with `escape`.
-/

namespace GraphPattern

/-! ## Plain forms of numbers -/

/-- The text without a sign in front. -/
def dropSign : List Char → List Char
  | '+' :: cs => cs
  | '-' :: cs => cs
  | cs => cs

/-- Whether the text is a run of one or more decimal digits. -/
def isDigits (cs : List Char) : Bool :=
  !cs.isEmpty && cs.all Char.isDigit

/-- Whether the text is an optional sign and digits. -/
def isInteger (cs : List Char) : Bool :=
  isDigits (dropSign cs)

/-- Whether the text is an optional sign, any digits, a point and one or more digits. -/
def isDecimal (cs : List Char) : Bool :=
  let number := dropSign cs
  match number.dropWhile (· ≠ '.') with
  | [] => false
  | _ :: fraction => (number.takeWhile (· ≠ '.')).all Char.isDigit && isDigits fraction

/-- Whether the text is an optional sign, digits and a point at the end. -/
def isPointedInteger (cs : List Char) : Bool :=
  match (dropSign cs).reverse with
  | '.' :: digits => isDigits digits.reverse
  | _ => false

/-- Whether the letter starts an exponent. -/
def isExponentMark (c : Char) : Bool :=
  c = 'e' || c = 'E'

/-- Whether the text is a number, an exponent letter and a signed integer. -/
def isDouble (cs : List Char) : Bool :=
  match cs.dropWhile (!isExponentMark ·) with
  | [] => false
  | _ :: exponent =>
    let mantissa := cs.takeWhile (!isExponentMark ·)
    (isInteger mantissa || isDecimal mantissa || isPointedInteger mantissa) && isInteger exponent

/-! ## Literals -/

/-- A lexical form with at most one of datatype and language tag, where it was built by `simple`,
`typed` or `tagged`. -/
structure Literal where
  lexical : String
  datatype : Option Iri
  language : Option String
deriving DecidableEq, Repr, Inhabited

namespace Literal

/-- A simple string. -/
def simple (lexical : String) : Literal := ⟨lexical, none, none⟩

/-- A literal of a datatype. A string of datatype `xsd:string` is the simple string. -/
def typed (lexical : String) (datatype : Iri) : Literal :=
  ⟨lexical, if datatype.text = Vocabulary.xsdString then none else some datatype, none⟩

/-- A string in a language. Tags are kept in lower case. -/
def tagged (lexical language : String) : Literal :=
  ⟨lexical, none, some (language.map Char.toLower)⟩

/-- A whole number. -/
def integer (value : Int) : Literal :=
  typed (toString value) ⟨Vocabulary.xsdInteger⟩

/-- A truth value. -/
def boolean (value : Bool) : Literal :=
  typed (if value then "true" else "false") ⟨Vocabulary.xsdBoolean⟩

/-- Whether the lexical form is a plain form of its datatype, which is written without quotes. -/
def isBare (l : Literal) : Bool :=
  match l.datatype with
  | none => false
  | some datatype =>
    if datatype.text = Vocabulary.xsdInteger then isInteger l.lexical.toList
    else if datatype.text = Vocabulary.xsdDecimal then isDecimal l.lexical.toList
    else if datatype.text = Vocabulary.xsdDouble then isDouble l.lexical.toList
    else if datatype.text = Vocabulary.xsdBoolean then
      l.lexical = "true" || l.lexical = "false"
    else false

/-- A character of a quoted lexical form: five characters are written with a backslash. -/
def escape (c : Char) : List Char :=
  if c = '"' then ['\\', '"']
  else if c = '\\' then ['\\', '\\']
  else if c = '\n' then ['\\', 'n']
  else if c = '\r' then ['\\', 'r']
  else if c = '\t' then ['\\', 't']
  else [c]

/-- The lexical form between quotes. -/
def quotedForm (l : Literal) : String :=
  String.ofList ('"' :: (l.lexical.toList.flatMap escape ++ ['"']))

/-- What follows the quoted form. A language tag hides a datatype. -/
def suffix (l : Literal) : String :=
  match l.language, l.datatype with
  | some language, _ => "@" ++ language
  | none, some datatype => "^^" ++ datatype.render
  | none, none => ""

/-- The literal as it is written in a query. -/
def render (l : Literal) : String :=
  if l.isBare then l.lexical else l.quotedForm ++ l.suffix

end Literal

end GraphPattern
