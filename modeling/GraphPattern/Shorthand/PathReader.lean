import GraphPattern.Path
import GraphPattern.Shorthand.TermReader

/-!
# Reading paths

A path is one step or several with slashes between them; a step is a predicate or a path in
parentheses. Parentheses group only, so the path that is read is flat.

Each level of parentheses takes a token, so the number of tokens bounds the depth.
-/

namespace GraphPattern.Shorthand

/-- The operators of paths that are not read. -/
def TokenKind.pathOperator? : TokenKind → Option String
  | .pipe => some "|"
  | .caret => some "^"
  | .bang => some "!"
  | .star => some "*"
  | .plus => some "+"
  | .question => some "?"
  | _ => none

namespace Source

variable (s : Source)

/-- Complains if the next token is an operator that is not read. -/
def rejectOperator (ts : List Token) : Except Fault Unit :=
  match (nextKind ts).bind TokenKind.pathOperator? with
  | some symbol => s.fault ts (.pathOperator symbol)
  | none => .ok ()

/-- A step without the checks around it. -/
def readBareStep (nested : Reader Path) : Reader Path := fun ts =>
  match ts with
  | [] => s.fault ts .stepMissing
  | ⟨kind, span⟩ :: rest =>
    match kind with
    | .leftParen => do
      let (path, rest) ← nested rest
      let rest ← s.expect .malformedPath .rightParen rest
      .ok (path, rest)
    | .iriRef iri => .ok (.predicate (.iri ⟨iri⟩), rest)
    | .prefixedName label name => do
      let iri ← s.expand label name span
      .ok (.predicate (.iri iri), rest)
    | .var name => .ok (.predicate (.free name), rest)
    | .lt | .ltEq => s.fault ts .iriNotClosed
    | other =>
      if other = .word "a" then .ok (.predicate .rdfType, rest)
      else s.fault ts (.predicateExpected other)

/-- A step. No operator may stand before it or after it. -/
def readStep (nested : Reader Path) : Reader Path := fun ts => do
  s.rejectOperator ts
  let (path, rest) ← s.readBareStep nested ts
  s.rejectOperator rest
  .ok (path, rest)

/-- The steps that follow, each after a slash. The limit is the number of tokens. -/
def readMoreSteps (step : Reader Path) : Nat → Reader (List Path)
  | 0, ts => .ok ([], ts)
  | limit + 1, ts =>
    if nextKind ts = some .slash then do
      let (path, rest) ← step (ts.drop 1)
      let (paths, rest) ← readMoreSteps step limit rest
      .ok (path :: paths, rest)
    else .ok ([], ts)

/-- A path whose parenthesized steps are read by `nested`. -/
def readSteps (nested : Reader Path) : Reader Path := fun ts => do
  let (path, rest) ← s.readStep nested ts
  let (paths, rest) ← readMoreSteps (s.readStep nested) rest.length rest
  s.rejectOperator rest
  match Path.sequence? (path :: paths) with
  | some path => .ok (path, rest)
  | none => s.fault rest .emptyPath

/-- A path with at most so many levels of parentheses. -/
def readPathWithin : Nat → Reader Path
  | 0 => fun ts => s.fault ts .stepMissing
  | depth + 1 => s.readSteps (readPathWithin depth)

/-- A path. -/
def readPath : Reader Path := fun ts => s.readPathWithin ts.length ts

end Source

end GraphPattern.Shorthand
