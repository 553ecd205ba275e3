import GraphPattern.Proofs.Shorthand.Plain
import GraphPattern.Proofs.Steps
import GraphPattern.Shorthand

/-!
# The levels of expressions

The readers of expressions, each with the level of the operators that it reads: `Source.readFrom` is the
reader of one level and of all that bind more tightly. Operators of a level follow one another, apart
from comparisons (`GroupsLeft`).
-/

namespace GraphPattern

theorem BinaryOp.level_mem : ∀ op : BinaryOp, 1 ≤ op.level ∧ op.level ≤ 5 := by
  decide

theorem Expression.level_mem (e : Expression) : 1 ≤ e.level ∧ e.level ≤ 7 := by
  cases e with
  | binary op l r => exact ⟨op.level_mem.1, Nat.le_trans op.level_mem.2 (by decide)⟩
  | _ => simp [level]

namespace Shorthand

@[simp] theorem nextKind_nil : nextKind [] = none := rfl

@[simp] theorem nextKind_cons (t : Token) (ts : List Token) : nextKind (t :: ts) = some t.kind := rfl

/-! ## Operators between operands -/

/-- The operators of a level. -/
def operator? : Nat → TokenKind → Option BinaryOp
  | 1 => TokenKind.disjunction?
  | 2 => TokenKind.conjunction?
  | 3 => TokenKind.comparison?
  | 4 => TokenKind.additive?
  | 5 => TokenKind.multiplicative?
  | _ => fun _ => none

/-- Whether operators of the level may follow one another. -/
def GroupsLeft (k : Nat) : Prop := k = 1 ∨ k = 2 ∨ k = 4 ∨ k = 5

instance : DecidablePred GroupsLeft := fun k =>
  inferInstanceAs (Decidable (k = 1 ∨ k = 2 ∨ k = 4 ∨ k = 5))

theorem operator?_token : ∀ op : BinaryOp, operator? op.level op.token = some op := by
  decide

/-- An operator of a level is read off its token only. -/
theorem eq_token_of_operator? {k : Nat} {kind : TokenKind} {op : BinaryOp}
    (h : operator? k kind = some op) : kind = op.token ∧ op.level = k := by
  match k, h with
  | 1, h | 2, h | 3, h | 4, h | 5, h => cases kind <;> cases h <;> exact ⟨rfl, rfl⟩

theorem groupsLeft_level : ∀ {op : BinaryOp}, op.level ≠ 3 → GroupsLeft op.level := by
  decide

theorem GroupsLeft.level_mem {k : Nat} (h : GroupsLeft k) : 1 ≤ k ∧ k ≤ 5 := by
  unfold GroupsLeft at h
  omega

theorem GroupsLeft.ne_three {k : Nat} (h : GroupsLeft k) : k ≠ 3 := by
  rcases h with rfl | rfl | rfl | rfl <;> decide

/-- What is read in front of an operand is the token of an operator. -/
theorem eq_token_of_unary? {kind : TokenKind} {op : UnaryOp} (h : kind.unary? = some op) :
    kind = op.token := by
  cases kind <;> cases h <;> rfl

/-- What holds of operands, and of each level if it holds of the next tighter one, holds of all
levels. -/
theorem level_induction {P : Nat → Prop} (primary : P 7) (unary : P 7 → P 6)
    (chain : ∀ k, GroupsLeft k → P (k + 1) → P k) (relational : P 4 → P 3) {k : Nat}
    (hpos : 1 ≤ k) (hk : k ≤ 7) : P k := by
  have hsix := unary primary
  have hfour := chain 4 (by decide) (chain 5 (by decide) hsix)
  have htwo := chain 2 (by decide) (relational hfour)
  obtain rfl | rfl | rfl | rfl | rfl | rfl | rfl :
      k = 1 ∨ k = 2 ∨ k = 3 ∨ k = 4 ∨ k = 5 ∨ k = 6 ∨ k = 7 := by omega
  · exact chain 1 (by decide) htwo
  · exact htwo
  · exact relational hfour
  · exact hfour
  · exact chain 5 (by decide) hsix
  · exact hsix
  · exact primary

/-! ## Readers by level -/

namespace Source

variable (s : Source) (nested : Reader Expression)

/-- The readers from the tightest to the loosest. -/
def readers : Nat → Reader Expression
  | 0 => s.readPrimary nested
  | 1 => readUnary (readers 0)
  | 2 => readChain (readers 1) (operator? 5)
  | 3 => readChain (readers 2) (operator? 4)
  | 4 => readRelational (readers 3) (s.readArguments nested)
  | 5 => readChain (readers 4) (operator? 2)
  | i + 6 => readChain (readers (i + 5)) (operator? 1)

/-- The reader of expressions of a level and of those that bind more tightly. -/
def readFrom (k : Nat) : Reader Expression := s.readers nested (7 - k)

theorem readLevels_eq : s.readLevels nested = s.readFrom nested 1 := rfl

theorem readFrom_of_groupsLeft {k : Nat} (h : GroupsLeft k) :
    s.readFrom nested k = readChain (s.readFrom nested (k + 1)) (operator? k) := by
  rcases h with rfl | rfl | rfl | rfl <;> rfl

theorem readFrom_relational :
    s.readFrom nested 3 = readRelational (s.readFrom nested 4) (s.readArguments nested) := rfl

theorem readFrom_unary : s.readFrom nested 6 = readUnary (s.readFrom nested 7) := rfl

theorem readFrom_primary : s.readFrom nested 7 = s.readPrimary nested := rfl

end Source

end Shorthand

end GraphPattern
