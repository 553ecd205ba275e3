import GraphPattern.Shorthand.Reader
import GraphPattern.Term

/-!
# Reading terms

A term is one token, but for a sign before a number and a datatype after a string. A word by itself
is a simple literal, apart from three words with a meaning.
-/

namespace GraphPattern.Shorthand

/-- The term that a word stands for. -/
def wordTerm (word : String) : Term :=
  if word = "a" then .rdfType
  else if word = "true" then .literal (.boolean true)
  else if word = "false" then .literal (.boolean false)
  else .literal (.simple word)

namespace Source

variable (s : Source)

/-- What may follow the value of a string: the datatype after `^^`. A string with a language tag has
none. -/
def readSuffix (value : String) (language : Option String) : Reader Literal := fun ts =>
  match language, ts with
  | some tag, _ => .ok (.tagged value tag, ts)
  | none, ⟨.doubleCaret, _⟩ :: rest =>
    match rest with
    | ⟨.iriRef iri, _⟩ :: rest => .ok (.typed value ⟨iri⟩, rest)
    | ⟨.prefixedName label name, span⟩ :: rest => do
      let iri ← s.expand label name span
      .ok (.typed value iri, rest)
    | _ => s.fault rest .datatypeExpected
  | none, _ => .ok (.simple value, ts)

/-- A number, after its sign. -/
def readNumber (sign : String) : Reader Literal := fun ts =>
  match ts with
  | ⟨.integer text, _⟩ :: rest => .ok (.typed (sign ++ text) ⟨Vocabulary.xsdInteger⟩, rest)
  | ⟨.decimal text, _⟩ :: rest => .ok (.typed (sign ++ text) ⟨Vocabulary.xsdDecimal⟩, rest)
  | ⟨.double text, _⟩ :: rest => .ok (.typed (sign ++ text) ⟨Vocabulary.xsdDouble⟩, rest)
  | _ => s.fault ts .numberExpected

/-- A term that is read by the reader of literals. -/
def asTerm (result : Except Fault (Literal × List Token)) : Except Fault (Term × List Token) :=
  result.map fun r => (.literal r.1, r.2)

/-- A term. -/
def readTerm : Reader Term := fun ts =>
  match ts with
  | [] => s.fault ts .termMissing
  | ⟨kind, span⟩ :: rest =>
    match kind with
    | .iriRef iri => .ok (.iri ⟨iri⟩, rest)
    | .prefixedName label name => do
      let iri ← s.expand label name span
      .ok (.iri iri, rest)
    | .var name => .ok (.free name, rest)
    | .blankNode label => .ok (.blank ⟨label⟩, rest)
    | .string value language => asTerm (s.readSuffix value language rest)
    | .integer _ | .decimal _ | .double _ => asTerm (s.readNumber "" ts)
    | .plus => asTerm (s.readNumber "+" rest)
    | .minus => asTerm (s.readNumber "-" rest)
    | .word text => .ok (wordTerm text, rest)
    | .lt | .ltEq => s.fault ts .iriNotClosed
    | .question => s.fault ts .namelessQuestion
    | other => s.fault ts (.termExpected other)

/-- A variable, with or without its sigil. -/
def readVariable : Reader Variable := fun ts =>
  match ts with
  | ⟨.var name, _⟩ :: rest => .ok (⟨name, none⟩, rest)
  | ⟨.word name, _⟩ :: rest => .ok (⟨name, none⟩, rest)
  | _ => s.fault ts .variableExpected

end Source

end GraphPattern.Shorthand
