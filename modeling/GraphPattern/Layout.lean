import GraphPattern.Pattern

/-!
# Layout of queries

A pattern is written on one line, or with each element on a line of its own and the lines of a scope
indented. The two layouts put different space at the same places and nothing else. A resolved
variable is written as its value; a group in which nothing would be written is `{ }`.
-/

namespace GraphPattern

/-- How a query is laid out. -/
structure Layout where
  /-- Whether each element has a line of its own. -/
  pretty : Bool := false
  /-- The number of spaces for each scope, where lines are used. -/
  indent : Nat := 2
deriving DecidableEq, Repr, Inhabited

namespace Layout

/-- Everything on one line. -/
def oneLine : Layout := {}

/-- One line for each element, and two spaces for each scope. -/
def lines : Layout := ⟨true, 2⟩

/-- What separates two elements inside so many scopes. -/
def lineBreak (l : Layout) (depth : Nat) : String :=
  if l.pretty then "\n" ++ String.ofList (List.replicate (depth * l.indent) ' ') else " "

/-- A scope that starts at a depth, around what is written in it. -/
def braces (l : Layout) (depth : Nat) (inside : String) : String :=
  "\x7b" ++ inside ++ l.lineBreak depth ++ "\x7d"

/-- A group that starts at a depth, around the text of its elements. -/
def scope (l : Layout) (depth : Nat) (g : Group) (inside : String) : String :=
  if g.isVacant then "\x7b \x7d" else l.braces depth inside

end Layout

/-- An entry of a projection: a resolved variable is written with its value. -/
def Variable.renderProjected (v : Variable) : String :=
  match v.binding with
  | some value => "(" ++ value.render ++ " AS " ++ v.render ++ ")"
  | none => v.render

/-- What stands before the pattern of a query. Without a projection all variables take part. -/
def renderHead (distinct : Bool) (projection : List Variable) : String :=
  "SELECT " ++ (if distinct then "DISTINCT " else "") ++
    (if projection.isEmpty then "*"
      else " ".intercalate (projection.map Variable.renderProjected)) ++ " WHERE "

mutual

/-- An element, with the space before it, inside so many scopes. -/
def Element.render (l : Layout) (depth : Nat) : Element → String
  | .block ts => String.join (ts.map fun t => l.lineBreak depth ++ t.render ++ " .")
  | .optional g =>
    l.lineBreak depth ++ "OPTIONAL " ++ l.scope depth g (Group.renderInside l (depth + 1) g)
  | .union gs => l.lineBreak depth ++ Group.renderAlternatives l depth gs
  | .minus g =>
    l.lineBreak depth ++ "MINUS " ++ l.scope depth g (Group.renderInside l (depth + 1) g)
  | .subQuery d vs g _ =>
    l.lineBreak depth ++ l.braces depth (l.lineBreak (depth + 1) ++ renderHead d vs ++
      l.scope (depth + 1) g (Group.renderInside l (depth + 2) g))
  | .bind e v => l.lineBreak depth ++ "BIND(" ++ e.render ++ " AS " ++ v.render ++ ")"
  | .filter e => l.lineBreak depth ++ "FILTER(" ++ e.render ++ ")"

/-- The elements of a group, each with the space before it. -/
def Group.renderInside (l : Layout) (depth : Nat) : List Element → String
  | [] => ""
  | e :: g => Element.render l depth e ++ Group.renderInside l depth g

/-- The alternatives of a union. -/
def Group.renderAlternatives (l : Layout) (depth : Nat) : List (List Element) → String
  | [] => ""
  | [g] => l.scope depth g (Group.renderInside l (depth + 1) g)
  | g :: h :: gs =>
    l.scope depth g (Group.renderInside l (depth + 1) g) ++ " UNION " ++
      Group.renderAlternatives l depth (h :: gs)

end

/-- A group with its braces, inside so many scopes. -/
def Group.render (l : Layout) (depth : Nat) (g : Group) : String :=
  l.scope depth g (Group.renderInside l (depth + 1) g)

/-- A group on one line. -/
def Group.text (g : Group) : String := g.render .oneLine 0

end GraphPattern
