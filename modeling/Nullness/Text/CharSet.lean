import Nullness.Text.Hex
import Nullness.Text.Split

/-!
# Sets of characters

A set of characters is written as lines with the ranges of its code points, in hexadecimal
and in ascending order, with blanks between them: `61-7a` is a range with both its ends,
`5f` is a single code point.
-/

namespace Nullness

namespace Text

/-- Ranges of code points, both ends included. -/
structure CharSet where
  ranges : List (Nat × Nat)
deriving DecidableEq, Repr

/-- A range with both its ends, or a single code point. -/
def range? (word : List Char) : Option (Nat × Nat) :=
  match (split (· == '-') word).mapM hexNat? with
  | some [n] => some (n, n)
  | some [low, high] => some (low, high)
  | _ => none

namespace CharSet

/-- The set that lines write. Words that are no ranges do not count. -/
def ofLines (lines : List String) : CharSet :=
  ⟨lines.flatMap fun line => (words line).filterMap range?⟩

def contains (s : CharSet) (c : Char) : Bool :=
  s.ranges.any fun (low, high) => low ≤ c.toNat && c.toNat ≤ high

@[simp] theorem contains_mk_nil (c : Char) : (CharSet.mk []).contains c = false := rfl

@[simp] theorem contains_mk_cons (low high : Nat) (rs : List (Nat × Nat)) (c : Char) :
    (CharSet.mk ((low, high) :: rs)).contains c =
      (low ≤ c.toNat && c.toNat ≤ high || (CharSet.mk rs).contains c) := rfl

end CharSet

end Text

end Nullness
