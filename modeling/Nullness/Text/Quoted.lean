import Nullness.Text.Unprintable

/-!
# Quoted texts in messages

A text is shown between double quotes, on one line. What could not be seen or told
apart is spelled out: by a letter after a backslash, else by its number.
-/

namespace Nullness

namespace Text

/-- Digits of a number to base sixteen, in lower case. -/
def hex (n : Nat) : String :=
  String.ofList (Nat.toDigits 16 n)

/-- How one character is shown. -/
def quoteChar (c : Char) : String :=
  if c = '\x00' then "\\0"
  else if c = '\t' then "\\t"
  else if c = '\r' then "\\r"
  else if c = '\n' then "\\n"
  else if c = '\\' ∨ c = '"' then String.ofList ['\\', c]
  else if c < ' ' ∨ isUnprintable c then "\\u\x7b" ++ hex c.toNat ++ "\x7d"
  else c.toString

/-- A text between quotes. -/
def quote (s : String) : String :=
  "\"" ++ "".intercalate (s.toList.map quoteChar) ++ "\""

end Text

end Nullness
