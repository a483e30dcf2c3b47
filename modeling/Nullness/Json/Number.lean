import Nullness.Json.Reader

/-!
# Numbers

A number without fraction and exponent is an integer if it fits 64 bits, with the
sign if it is negative; minus zero is not an integer. All others are doubles.

The digits of a double make a significand of at most 64 bits. Digits that no longer
fit raise the exponent when they stand before the point, and are dropped when they
stand behind it. The significand is rounded to a double, and that is multiplied or
divided by a power of ten.
-/

namespace Nullness

namespace Json

/-- The value of a decimal digit. -/
def digitValue (c : Char) : Nat := c.toNat - '0'.toNat

/-- The greatest number that fits 64 bits. -/
def greatestUnsigned : Nat := 18446744073709551615

/-- The greatest number that fits 64 bits when it is negated. -/
def greatestNegated : Nat := 9223372036854775808

/-- Appends digits to a significand as long as it fits 64 bits, and gives the digits
that are left over. -/
def absorb (m : Nat) : List Char → Nat × List Char
  | [] => (m, [])
  | c :: cs =>
    let m' := m * 10 + digitValue c
    if m' ≤ greatestUnsigned then absorb m' cs else (m, c :: cs)

/-- The greatest exponent that is looked at closely. -/
def exponentLimit : Nat := 2147483647

/-- The number that digits write, or how many digits are left when it passes the
greatest exponent. -/
def exponentValue (e : Nat) : List Char → Except Nat Nat
  | [] => .ok e
  | c :: cs =>
    let e' := e * 10 + digitValue c
    if e' ≤ exponentLimit then exponentValue e' cs else .error cs.length

/-! ## Scaling -/

/-- A power of ten as a double, up to the 308th. -/
def powerOfTen (k : Nat) : Float := Float.ofScientific 1 false k

/-- Divides by `10 ^ k`, in steps that doubles can hold. -/
def shrink (f : Float) (k : Nat) : Float :=
  if k ≤ 308 then f / powerOfTen k
  else if f == 0 then f
  else shrink (f / powerOfTen 308) (k - 308)
termination_by k

/-- The double `m · 10 ^ e`, unless it is too great. -/
def scale? (m : Nat) (e : Int) : Option Float :=
  let f := Float.ofNat m
  match e with
  | .negSucc k => some (shrink f (k + 1))
  | .ofNat k =>
    if 308 < k then
      if m = 0 then some f else none
    else
      let p := f * powerOfTen k
      if p.isInf then none else some p

/-- The bits of a double with a sign. -/
def signedBits (negative : Bool) (f : Float) : UInt64 :=
  (if negative then -f else f).toBits

/-! ## What a number stands for -/

/-- The parts of a number as it is written. -/
structure NumberParts where
  negative : Bool
  /-- The digits before the point. -/
  whole : List Char
  /-- The digits behind the point, if there is a point. -/
  fraction : Option (List Char)
  /-- Whether the exponent is negative, and its digits. -/
  exponent : Option (Bool × List Char)

namespace NumberParts

/-- The integer that is written, if it is one that fits. -/
def integer? (p : NumberParts) : Option Int :=
  let (m, surplus) := absorb 0 p.whole
  if p.fraction.isSome ∨ p.exponent.isSome ∨ surplus ≠ [] then none
  else if !p.negative then some m
  else if 0 < m ∧ m ≤ greatestNegated then some (-m)
  else none

/-- The bits of the double that is written. If it is out of range, how many digits of the
exponent were not looked at. -/
def double (p : NumberParts) : Except Nat UInt64 :=
  let (m, surplus) := absorb 0 p.whole
  let ds := p.fraction.getD []
  let (m, dropped) := absorb m ds
  let e : Int := surplus.length - (ds.length - dropped.length)
  let finish (e : Int) : Except Nat UInt64 :=
    match scale? m e with
    | some f => .ok (signedBits p.negative f)
    | none => .error 0
  match p.exponent with
  | none => finish e
  | some (down, ds) =>
    match exponentValue 0 ds with
    | .ok k => finish (if down then e - k else e + k)
    | .error n => if down || m = 0 then .ok (signedBits p.negative 0) else .error n

end NumberParts

namespace Reader

def digits : Reader (List Char) := span Char.isDigit

/-- The digits before the point. A zero stands alone. -/
def wholeDigits : Reader (List Char) := do
  match ← peek with
  | none => fail (.endWithin .value)
  | some c =>
    if c = '0' then
      advance
      match ← peek with
      | some d => if d.isDigit then fail .invalidNumber else return ['0']
      | none => return ['0']
    else if c.isDigit then digits
    else fail .invalidNumber

/-- Digits, one at least. -/
def someDigits : Reader (List Char) := do
  match ← peek with
  | none => fail (.endWithin .value)
  | some c => if c.isDigit then digits else fail .invalidNumber

/-- The digits behind the point, if there is a point. -/
def fractionDigits : Reader (Option (List Char)) := do
  if ← eat '.' then return some (← someDigits)
  else return none

/-- The sign and the digits behind an exponent mark, if there is one. -/
def exponentDigits : Reader (Option (Bool × List Char)) := do
  let mark ← peek
  if mark = some 'e' ∨ mark = some 'E' then
    advance
    let sign ← peek
    if sign = some '+' ∨ sign = some '-' then advance
    return some (sign = some '-', ← someDigits)
  else return none

/-- The parts of a number. -/
def numberParts : Reader NumberParts := do
  let negative ← eat '-'
  let whole ← wholeDigits
  let fraction ← fractionDigits
  let exponent ← exponentDigits
  return { negative, whole, fraction, exponent }

/-- A number. -/
def number : Reader Number := do
  let p ← numberParts
  match p.integer? with
  | some n => return .int n
  | none =>
    match p.double with
    | .ok bits => return .float bits
    | .error n => fun s => failLeft .numberOutOfRange (n + byteCount s) s

end Reader

end Json

end Nullness
