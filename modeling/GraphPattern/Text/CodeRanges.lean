/-!
# Ranges of code points

A class of characters given as the closed ranges of code points that make it up. The modules beside
this one hold one Unicode property each.
-/

namespace GraphPattern.Text

/-- Whether every range ends before the next one starts. -/
def isAscending : List (Nat × Nat) → Bool
  | [] => true
  | [r] => r.1 ≤ r.2
  | r :: s :: ranges => r.1 ≤ r.2 && r.2 < s.1 && isAscending (s :: ranges)

/-- Closed ranges of code points, in ascending order. -/
structure CodeRanges where
  toList : List (Nat × Nat)
  ascending : isAscending toList = true

/-- Whether a character lies in one of the ranges. -/
def CodeRanges.contains (ranges : CodeRanges) (c : Char) : Bool :=
  ranges.toList.any fun range => range.1 ≤ c.toNat && c.toNat ≤ range.2

end GraphPattern.Text
