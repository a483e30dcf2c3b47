import Nullness.Json.Value
import Nullness.Decimal.Shortest
import Nullness.Text.Quoted

/-!
# Printing JSON

Values are printed over several lines: every element and every entry has a line of
its own, two spaces further in than what holds it. Empty containers stay on one
line. In strings only quotes, backslashes and controls are escaped.
-/

namespace Nullness

namespace Json

/-- An escape by number. -/
def unicodeEscape (n : Nat) : List Char :=
  let ds := Nat.toDigits 16 n
  ['\\', 'u'] ++ List.replicate (4 - ds.length) '0' ++ ds

/-- How one character of a string is printed. -/
def printChar (c : Char) : List Char :=
  if c = '"' then ['\\', '"']
  else if c = '\\' then ['\\', '\\']
  else if c = '\x08' then ['\\', 'b']
  else if c = '\x0c' then ['\\', 'f']
  else if c = '\n' then ['\\', 'n']
  else if c = '\r' then ['\\', 'r']
  else if c = '\t' then ['\\', 't']
  else if c < ' ' then unicodeEscape c.toNat
  else [c]

/-- A string between its quotes. -/
def printString (s : String) : List Char :=
  '"' :: (s.toList.flatMap printChar ++ ['"'])

/-- A number. -/
def Number.print : Number → List Char
  | int (.ofNat n) => Nat.toDigits 10 n
  | int (.negSucc n) => '-' :: Nat.toDigits 10 (n + 1)
  | float bits => (Decimal.text bits).toList

/-- The end of a line, and the spaces in front of the next one. -/
def newline (depth : Nat) : List Char :=
  '\n' :: List.replicate (2 * depth) ' '

mutual

/-- A value that stands inside `depth` containers. -/
def print (depth : Nat) : Json → List Char
  | .null => ['n', 'u', 'l', 'l']
  | .bool true => ['t', 'r', 'u', 'e']
  | .bool false => ['f', 'a', 'l', 's', 'e']
  | .num n => n.print
  | .str s => printString s
  | .arr [] => ['[', ']']
  | .arr (e :: es) =>
    '[' :: (newline (depth + 1) ++ print (depth + 1) e ++ printElements (depth + 1) es ++
      newline depth ++ [']'])
  | .obj [] => ['{', '}']
  | .obj ((k, v) :: es) =>
    '{' :: (newline (depth + 1) ++ printString k ++ [':', ' '] ++ print (depth + 1) v ++
      printEntries (depth + 1) es ++ newline depth ++ ['}'])
termination_by structural j => j

/-- The elements of a list behind the first one. -/
def printElements (depth : Nat) : List Json → List Char
  | [] => []
  | e :: es => ',' :: (newline depth ++ print depth e ++ printElements depth es)
termination_by structural es => es

/-- The entries of an object behind the first one. -/
def printEntries (depth : Nat) : List (String × Json) → List Char
  | [] => []
  | (k, v) :: es =>
    ',' :: (newline depth ++ printString k ++ [':', ' '] ++ print depth v ++ printEntries depth es)
termination_by structural es => es

end

end Json

end Nullness
