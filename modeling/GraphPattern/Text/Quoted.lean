import GraphPattern.Text.DefaultIgnorable
import GraphPattern.Text.GraphemeExtend
import GraphPattern.Text.Printable

/-!
# Quoted text in messages

How a message quotes a piece of text: between double quotes, with every character escaped that would
end the quotation or would not be seen.
-/

namespace GraphPattern.Text

/-- A code point in braces, in lower-case hexadecimal without leading zeros. -/
def codePointEscape (c : Char) : List Char :=
  ['\\', 'u', '\x7b'] ++ Nat.toDigits 16 c.toNat ++ ['\x7d']

/-- The two half-width sound marks of Katakana. They extend a grapheme, but each is a letter with a
place of its own. -/
def isHalfwidthSoundMark (c : Char) : Bool := c = '\uff9e' || c = '\uff9f'

/-- Whether a character would join the one before it. -/
def joinsPrevious (c : Char) : Bool := isGraphemeExtend c && !isHalfwidthSoundMark c

/-- Whether a character is seen as a character of its own. -/
def isSeen (c : Char) : Bool := isPrintable c && !isDefaultIgnorable c && !joinsPrevious c

/-- One character of a quotation. The apostrophe stays as it is; a character that would not be seen
is written by its code point. -/
def quotedChar (c : Char) : List Char :=
  if c = '\x00' then ['\\', '0']
  else if c = '\t' then ['\\', 't']
  else if c = '\n' then ['\\', 'n']
  else if c = '\r' then ['\\', 'r']
  else if c = '"' then ['\\', '"']
  else if c = '\\' then ['\\', '\\']
  else if isSeen c then [c]
  else codePointEscape c

/-- The text between double quotes. -/
def quoted (s : String) : String :=
  String.ofList ('"' :: (s.toList.flatMap quotedChar ++ ['"']))

end GraphPattern.Text
