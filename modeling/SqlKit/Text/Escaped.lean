/-
  SqlKit/Text/Escaped.lean
  ========================
  **String literals.**

  A string literal stands between double quotes. A quote or a backslash in it is
  preceded by a backslash, and a combining mark, which would not show on its
  own, is written as its code point in hexadecimal digits. The contents are
  names, so control characters do not occur.
-/
import SqlKit.Text.CombiningMarks

namespace SqlKit.Text

/-- A character as it stands in a string literal. -/
def escapeChar (c : Char) : List Char :=
  if c = '"' ∨ c = '\\' then ['\\', c]
  else if isCombiningMark c then
    ['\\', 'u', '\x7b'] ++ Nat.toDigits 16 c.toNat ++ ['\x7d']
  else [c]

/-- The string literal with the given content. -/
def stringLiteral (content : String) : String :=
  String.ofList ('"' :: content.toList.flatMap escapeChar ++ ['"'])

end SqlKit.Text
