import Nullness.Text.Split

/-!
# Punycode

A label of a host name that is not ASCII is written as its ASCII characters followed
by a code for the others. The others are inserted in ascending order; each insertion
is coded as its distance from the one before, in digits whose weights adapt to the
distances seen so far.
-/

namespace Nullness

namespace Url

namespace Punycode

/-- A digit of base 36: letters, then numerals. -/
def digit (n : Nat) : Char :=
  if n < 26 then Char.ofNat ('a'.toNat + n) else Char.ofNat ('0'.toNat + (n - 26))

/-- The least digit that goes on at the `k`th place. -/
def threshold (k bias : Nat) : Nat :=
  if k ≤ bias then 1 else if bias + 26 ≤ k then 26 else k - bias

theorem threshold_bounds (k bias : Nat) : 1 ≤ threshold k bias ∧ threshold k bias ≤ 26 := by
  unfold threshold
  split
  · omega
  · split <;> omega

/-- The digits of a distance, the `k`th place first. -/
def digits (k bias q : Nat) : List Char :=
  let t := threshold k bias
  if h : q < t then [digit q]
  else digit (t + (q - t) % (36 - t)) :: digits (k + 36) bias ((q - t) / (36 - t))
termination_by q
decreasing_by
  have hb := threshold_bounds k bias
  have : (q - threshold k bias) / (36 - threshold k bias) ≤ q - threshold k bias :=
    Nat.div_le_self ..
  omega

/-- Shrinks a distance until it fits one digit, counting the steps. -/
def settle (k delta : Nat) : Nat :=
  if 455 < delta then settle (k + 36) (delta / 35)
  else k + 36 * delta / (delta + 38)
termination_by delta

/-- The weights behind a distance, among `count` characters. -/
def adapt (delta count : Nat) (isFirst : Bool) : Nat :=
  let delta := if isFirst then delta / 700 else delta / 2
  settle 0 (delta + delta / count)

/-- Where coding stands. -/
structure State where
  delta : Nat
  bias : Nat
  /-- The number of characters inserted, the ASCII ones with them. -/
  handled : Nat
  isFirst : Bool
  code : List Char

/-- Passes one character of the label on the way to insert `n`. -/
def pass (n : Nat) (st : State) (c : Char) : State :=
  if c.toNat < n then { st with delta := st.delta + 1 }
  else if c.toNat = n then
    { delta := 0
      bias := adapt st.delta (st.handled + 1) st.isFirst
      handled := st.handled + 1
      isFirst := false
      code := st.code ++ digits 36 st.bias st.delta }
  else st

/-- Inserts the characters with the codes `ns`, which ascend from `last`. -/
def insertAll (label : List Char) (last : Nat) (st : State) : List Nat → State
  | [] => st
  | n :: ns =>
    let st := { st with delta := st.delta + (n - last) * (st.handled + 1) }
    let st := label.foldl (pass n) st
    insertAll label (n + 1) { st with delta := st.delta + 1 } ns

/-- The code of a label. -/
def encode (label : List Char) : List Char :=
  let ascii := label.filter (·.toNat < 128)
  let others := ((label.filter (128 ≤ ·.toNat)).map Char.toNat).eraseDups.mergeSort
  let start : State :=
    { delta := 0, bias := 72, handled := ascii.length, isFirst := true, code := [] }
  ascii ++ (if ascii.isEmpty then [] else ['-']) ++ (insertAll label 128 start others).code

/-! ## Reading -/

/-- The value of a digit of base 36, of either case. -/
def digitValue? (c : Char) : Option Nat :=
  if c.isLower then some (c.toNat - 'a'.toNat)
  else if c.isUpper then some (c.toNat - 'A'.toNat)
  else if c.isDigit then some (c.toNat - '0'.toNat + 26)
  else none

/-- No distance and no weight is greater. -/
def greatest : Nat := 4294967295

/-- Adds the distance at the front of a code to `sum`, and gives what is behind it. The
digits come with growing weights, the `k`th place first. -/
def takeDistance? (k bias weight sum : Nat) : List Char → Option (Nat × List Char)
  | [] => none
  | c :: cs =>
    match digitValue? c with
    | none => none
    | some d =>
      let t := threshold k bias
      if greatest < sum + d * weight then none
      else if d < t then some (sum + d * weight, cs)
      else if greatest < weight * (36 - t) then none
      else takeDistance? (k + 36) bias (weight * (36 - t)) (sum + d * weight) cs

/-- A distance takes at least one digit. -/
theorem length_lt_of_takeDistance? {k bias weight sum n : Nat} {cs rest : List Char}
    (h : takeDistance? k bias weight sum cs = some (n, rest)) : rest.length < cs.length := by
  induction cs generalizing k weight sum with
  | nil => cases h
  | cons c cs ih =>
    simp only [takeDistance?] at h
    split at h
    · cases h
    · split at h
      · cases h
      · split at h
        · cases h
          exact Nat.lt_succ_self _
        · split at h
          · cases h
          · exact Nat.lt_succ_of_lt (ih h)

/-- Inserts the characters that a code stands for into a label. The last one had the
code point `n`, and the places count on from `i`. -/
def insertCoded (n i bias : Nat) (label : List Char) (code : List Char) : Option (List Char) :=
  match _h : takeDistance? 36 bias 1 i code with
  | none => if code.isEmpty then some label else none
  | some (i', rest) =>
    let count := label.length + 1
    let n := n + i' / count
    if n.isValidChar then
      insertCoded n (i' % count + 1) (adapt (i' - i) count (i == 0))
        (label.insertIdx (i' % count) (.ofNat n)) rest
    else none
termination_by code.length
decreasing_by exact length_lt_of_takeDistance? (by assumption)

/-- The label that a code stands for. Without ASCII characters there is no hyphen. -/
def decode? (code : List Char) : Option (List Char) :=
  match Text.splitLast? '-' code with
  | some ([], _) => none
  | some (ascii, code) => insertCoded 128 0 72 ascii code
  | none => insertCoded 128 0 72 [] code

end Punycode

end Url

end Nullness
