import Nullness.Url.Name.Direction
import Nullness.Url.Name.Folding
import Nullness.Url.Name.Joiner
import Nullness.Url.Punycode

/-!
# Host names in ASCII

A host name is a row of labels between points. Its characters are folded and composed;
then each label that is not ASCII is written as a code behind `xn--`. Codes that were
found and codes that were made are held to the same rule: what they stand for is left
as it is by folding and fit for a name.
-/

namespace Nullness

namespace Url

namespace Name

/-- There are only ASCII characters. -/
def isAscii (s : List Char) : Bool := s.all (·.toNat < 128)

/-- A text with its characters folded and composed; none if one of them is refused. -/
def fold? (s : List Char) : Option (List Char) :=
  if isAscii s then some (s.map Char.toLower)
  else (s.mapM foldChar?).map fun parts => Text.composed parts.flatten

/-- What stands before the code of a label. -/
def codeMark : List Char := ['x', 'n', '-', '-']

/-- The code in a label. -/
def code? (label : List Char) : Option (List Char) :=
  if codeMark.isPrefixOf label then some (label.drop 4) else none

/-- No label with a code stands for more characters. -/
def longestLabel : Nat := 1000

/-- No code that is found is longer. -/
def longestCode : Nat := 2000

/-- A label, written in ASCII. -/
def asciiLabel? (label : List Char) : Option (List Char) :=
  if isAscii label then
    if (code? label).any (longestCode < ·.length) then none else some label
  else if longestLabel < label.length then none
  else some (codeMark ++ Punycode.encode label)

/-- A label may be written as a code: it needs one, nothing in it is to be folded, it
does not look like a code, it does not begin with a mark, and its joiners are in their
places. -/
def isCodable (label : List Char) : Bool :=
  !isAscii label && label.length ≤ longestLabel && fold? label = some label &&
    (code? label).isNone && !label.head?.any Text.isMark && joinersFit [] label

/-- The label that a label in ASCII stands for. -/
def meaning? (label : List Char) : Option (List Char) :=
  match code? label with
  | none => some label
  | some code => (Punycode.decode? code).filter isCodable

/-- The form of a name in ASCII; none if it is no name. -/
def ascii? (s : List Char) : Option (List Char) :=
  match fold? s with
  | none => none
  | some s =>
    match (Text.split (· == '.') s).mapM asciiLabel? with
    | none => none
    | some labels =>
      match labels.mapM meaning? with
      | none => none
      | some meanings =>
        if directionsAgree meanings then some (['.'].intercalate labels) else none

end Name

end Url

end Nullness
