import GraphPattern.Text.CodeRanges

/-!
# White space

The Unicode property *White_Space*, and trimming by it. It is wider than `Char.isWhitespace`, which
knows four ASCII characters only.
-/

namespace GraphPattern.Text

/-- All characters with the property *White_Space*. -/
def whitespaceRanges : CodeRanges where
  toList :=
    [ (0x9, 0xD), (0x20, 0x20), (0x85, 0x85), (0xA0, 0xA0), (0x1680, 0x1680), (0x2000, 0x200A),
      (0x2028, 0x2029), (0x202F, 0x202F), (0x205F, 0x205F), (0x3000, 0x3000) ]
  ascending := by decide +kernel

/-- Whether a character has the property *White_Space*. -/
def isWhitespace (c : Char) : Bool :=
  whitespaceRanges.contains c

/-- The text without its leading white space. -/
def trimStart (cs : List Char) : List Char :=
  cs.dropWhile isWhitespace

/-- The text without its trailing white space. -/
def trimEnd (cs : List Char) : List Char :=
  (cs.reverse.dropWhile isWhitespace).reverse

end GraphPattern.Text
