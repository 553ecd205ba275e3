import GraphPattern.Builder.SelectBuilder

/-!
# Calls as data

The calls of the two builders, so that what is done to a builder can be written down as a list of
calls. A call that attaches a pattern comes with the order in which the labels to be replaced are
visited: nothing fixes it, and no two calls need have the same. A call that adds a list gives its
first node; the others give nothing.
-/

namespace GraphPattern

/-- A call that builds a pattern. -/
inductive PatternCall where
  | addPrefix (label ns : String)
  | addWhere (subject : Arg Term) (predicate : Arg Path) (object : Arg Term)
  | addOptional (pattern : PatternArg) (order : LabelOrder := .reading)
  | addUnion (pattern : PatternArg) (order : LabelOrder := .reading)
  | addMinus (pattern : PatternArg) (order : LabelOrder := .reading)
  | addSubQuery (query : SubQuery) (order : LabelOrder := .reading)
  | addBind (expression : Arg Expression) (target : Arg Term)
  | addFilter (condition : Arg Expression)
  | list (terms : List (Arg Term))
  | setVar (var value : Arg Term)
  | unsetVar (var : Arg Term)

/-- A call that builds a query. -/
inductive SelectCall where
  | addVar (var : Arg Term)
  | setDistinct (on : Bool)
  | pattern (call : PatternCall)

/-- A call that gives nothing. -/
def BuildM.void {β : Type} (m : BuildM β Unit) : BuildM β (Option Term) :=
  m >>= fun _ => pure none

/-- Makes a call. -/
def PatternBuilder.perform : PatternCall → BuildM PatternBuilder (Option Term)
  | .addPrefix label ns => (addPrefix label ns).void
  | .addWhere s p o => (addWhere s p o).void
  | .addOptional p order => (addOptional p order).void
  | .addUnion p order => (addUnion p order).void
  | .addMinus p order => (addMinus p order).void
  | .addSubQuery q order => (addSubQuery q order).void
  | .addBind e v => (addBind e v).void
  | .addFilter e => (addFilter e).void
  | .list terms => some <$> list terms
  | .setVar v t => (setVar v t).void
  | .unsetVar v => (unsetVar v).void

/-- Makes a call. Resolving and freeing a variable concern the projection too; all else that builds
the pattern is left to the pattern builder. -/
def SelectBuilder.perform : SelectCall → BuildM SelectBuilder (Option Term)
  | .addVar v => (addVar v).void
  | .setDistinct on => (setDistinct on).void
  | .pattern (.setVar v t) => (setVar v t).void
  | .pattern (.unsetVar v) => (unsetVar v).void
  | .pattern call => onBody (PatternBuilder.perform call)

end GraphPattern
