import GraphPattern.Term

/-!
# Expressions

What a `FILTER` tests and a `BIND` computes. Each form has a level, and text puts parentheses around
an operand exactly where its level does not bind tightly enough; operators of one level are grouped
to the left.
-/

namespace GraphPattern

/-- The operators between two operands. -/
inductive BinaryOp where
  | or | and
  | eq | notEq | lt | gt | ltEq | gtEq
  | add | sub
  | mul | div
deriving DecidableEq, Repr

namespace BinaryOp

/-- All operators, from the loosest to the tightest. -/
def all : List BinaryOp :=
  [.or, .and, .eq, .notEq, .lt, .gt, .ltEq, .gtEq, .add, .sub, .mul, .div]

/-- The operator as it is written. -/
def symbol : BinaryOp → String
  | .or => "||"
  | .and => "&&"
  | .eq => "="
  | .notEq => "!="
  | .lt => "<"
  | .gt => ">"
  | .ltEq => "<="
  | .gtEq => ">="
  | .add => "+"
  | .sub => "-"
  | .mul => "*"
  | .div => "/"

theorem mem_all (op : BinaryOp) : op ∈ all := by
  cases op <;> decide

/-- What holds of all operators is found out by going through them. -/
instance {p : BinaryOp → Prop} [DecidablePred p] : Decidable (∀ op, p op) :=
  decidable_of_iff (∀ op ∈ all, p op) ⟨fun h op => h op op.mem_all, fun h op _ => h op⟩

/-- How tightly the operator binds. -/
def level : BinaryOp → Nat
  | .or => 1
  | .and => 2
  | .eq | .notEq | .lt | .gt | .ltEq | .gtEq => 3
  | .add | .sub => 4
  | .mul | .div => 5

end BinaryOp

/-- The operators in front of one operand. -/
inductive UnaryOp where
  | not | neg | plus
deriving DecidableEq, Repr

namespace UnaryOp

/-- All operators. -/
def all : List UnaryOp := [.not, .neg, .plus]

/-- The operator as it is written. -/
def symbol : UnaryOp → String
  | .not => "!"
  | .neg => "-"
  | .plus => "+"

theorem mem_all (op : UnaryOp) : op ∈ all := by
  cases op <;> decide

instance {p : UnaryOp → Prop} [DecidablePred p] : Decidable (∀ op, p op) :=
  decidable_of_iff (∀ op ∈ all, p op) ⟨fun h op => h op op.mem_all, fun h op _ => h op⟩

end UnaryOp

/-- What a call names: a function of the query language, in upper case, or one known by its IRI. -/
inductive Callee where
  | builtin (name : String)
  | iri (iri : Iri)
deriving DecidableEq, Repr

namespace Callee

/-- The function of the query language with this name, in whatever case it is given. -/
def ofName (name : String) : Callee := .builtin (name.map Char.toUpper)

/-- The name, or the IRI between angle brackets. -/
def render : Callee → String
  | .builtin name => name
  | .iri i => i.render

end Callee

/-- An expression. -/
inductive Expression where
  /-- A constant or a variable. -/
  | term (t : Term)
  | binary (op : BinaryOp) (left right : Expression)
  | unary (op : UnaryOp) (operand : Expression)
  | call (callee : Callee) (args : List Expression)
  /-- Whether the operand is one of the candidates, or with `negated` whether it is none. -/
  | isIn (operand : Expression) (candidates : List Expression) (negated : Bool)
deriving Repr, Inhabited

namespace Expression

/-! ## Equality -/

mutual

/-- Whether two expressions are equal. -/
def beq : Expression → Expression → Bool
  | .term s, .term t => s = t
  | .binary o l r, .binary o' l' r' => o = o' && beq l l' && beq r r'
  | .unary o e, .unary o' e' => o = o' && beq e e'
  | .call c es, .call c' es' => c = c' && beqAll es es'
  | .isIn e es n, .isIn e' es' n' => n = n' && beq e e' && beqAll es es'
  | _, _ => false

/-- Whether two lists of expressions are equal. -/
def beqAll : List Expression → List Expression → Bool
  | [], [] => true
  | e :: es, e' :: es' => beq e e' && beqAll es es'
  | _, _ => false

end

mutual

theorem beq_iff_eq : ∀ e e' : Expression, beq e e' = true ↔ e = e'
  | .term s, e' => by cases e' <;> simp [beq]
  | .binary o l r, e' => by
    cases e' with
    | binary o' l' r' => simp [beq, beq_iff_eq l l', beq_iff_eq r r', and_assoc]
    | _ => simp [beq]
  | .unary o e, e' => by
    cases e' with
    | unary o' e' => simp [beq, beq_iff_eq e e']
    | _ => simp [beq]
  | .call c es, e' => by
    cases e' with
    | call c' es' => simp [beq, beqAll_iff_eq es es']
    | _ => simp [beq]
  | .isIn e es n, e' => by
    cases e' with
    | isIn e' es' n' =>
      simp only [beq, Bool.and_eq_true, decide_eq_true_eq, beq_iff_eq e e', beqAll_iff_eq es es',
        isIn.injEq]
      constructor
      · rintro ⟨⟨h₁, h₂⟩, h₃⟩
        exact ⟨h₂, h₃, h₁⟩
      · rintro ⟨h₁, h₂, h₃⟩
        exact ⟨⟨h₃, h₁⟩, h₂⟩
    | _ => simp [beq]

theorem beqAll_iff_eq : ∀ es es' : List Expression, beqAll es es' = true ↔ es = es'
  | [], [] => by simp [beqAll]
  | [], _ :: _ => by simp [beqAll]
  | _ :: _, [] => by simp [beqAll]
  | e :: es, e' :: es' => by simp [beqAll, beq_iff_eq e e', beqAll_iff_eq es es']

end

instance : DecidableEq Expression := fun e e' => decidable_of_iff _ (beq_iff_eq e e')

/-! ## The terms of an expression -/

mutual

/-- The leaves, from left to right. -/
def terms : Expression → List Term
  | .term t => [t]
  | .binary _ l r => terms l ++ terms r
  | .unary _ e => terms e
  | .call _ es => termsOfAll es
  | .isIn e es _ => terms e ++ termsOfAll es

/-- The leaves of a list of expressions. -/
def termsOfAll : List Expression → List Term
  | [] => []
  | e :: es => terms e ++ termsOfAll es

end

mutual

/-- The expression with every leaf replaced. -/
def map (f : Term → Term) : Expression → Expression
  | .term t => .term (f t)
  | .binary o l r => .binary o (map f l) (map f r)
  | .unary o e => .unary o (map f e)
  | .call c es => .call c (mapAll f es)
  | .isIn e es n => .isIn (map f e) (mapAll f es) n

/-- The expressions with every leaf replaced. -/
def mapAll (f : Term → Term) : List Expression → List Expression
  | [] => []
  | e :: es => map f e :: mapAll f es

end

/-! ## Text -/

/-- How tightly the expression holds together when it stands as an operand. -/
def level : Expression → Nat
  | .binary op _ _ => op.level
  | .isIn _ _ _ => 3
  | .unary _ _ => 6
  | .term _ => 7
  | .call _ _ => 7

/-- The text, in parentheses if they are needed. -/
def parenthesize (needed : Bool) (text : String) : String :=
  if needed then "(" ++ text ++ ")" else text

mutual

/-- The expression as it is written in a query. -/
def render : Expression → String
  | .term t => t.render
  | .binary op l r =>
    parenthesize (l.level < op.level) (render l) ++ " " ++ op.symbol ++ " " ++
      parenthesize (r.level ≤ op.level) (render r)
  | .unary op e => op.symbol ++ parenthesize (e.level < 6) (render e)
  | .call c es => c.render ++ "(" ++ renderAll es ++ ")"
  | .isIn e es negated =>
    parenthesize (e.level ≤ 3) (render e) ++ (if negated then " NOT IN (" else " IN (") ++
      renderAll es ++ ")"

/-- A list of expressions with commas between them. -/
def renderAll : List Expression → String
  | [] => ""
  | [e] => render e
  | e :: e' :: es => render e ++ ", " ++ renderAll (e' :: es)

end

end Expression

end GraphPattern
