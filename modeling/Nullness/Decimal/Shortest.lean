/-!
# Shortest decimal text of a double

A double stands for the reals that round to it. Among the decimals of fewest digits
in that interval the nearest to the double is shown. The digits are found in exact
arithmetic: for one digit, two digits and so on the two neighbours of the value on
the grid of such decimals are tried.
-/

namespace Nullness

namespace Decimal

/-- A positive fraction. -/
structure Fraction where
  num : Nat
  den : Nat

/-- The fraction `m · 2 ^ q`. -/
def Fraction.ofBinary (m : Nat) (q : Int) : Fraction :=
  match q with
  | .ofNat k => ⟨m * Nat.pow 2 k, 1⟩
  | .negSucc k => ⟨m, Nat.pow 2 (k + 1)⟩

/-- Where a finite positive double lies: the value and the ends of the interval of
reals that round to it, over one denominator. -/
structure Span where
  low : Nat
  value : Nat
  high : Nat
  den : Nat
  /-- The ends round to the value too. -/
  closed : Bool

/-- The bit that a double has in front of its fraction and does not store. -/
def hiddenBit : Nat := 4503599627370496

/-- The span of the double with the given exponent and fraction bits. -/
def Span.ofBits (exponent fraction : Nat) : Span :=
  let m := if exponent = 0 then fraction else fraction + hiddenBit
  let q : Int := (if exponent = 0 then 1 else exponent) - 1077
  let below := if fraction = 0 ∧ exponent > 1 then 1 else 2
  let unit := Fraction.ofBinary 1 q
  { low := (4 * m - below) * unit.num
    value := 4 * m * unit.num
    high := (4 * m + 2) * unit.num
    den := unit.den
    closed := m % 2 = 0 }

/-- The number of digits of a number, base ten. -/
def digitCount (n : Nat) : Nat := (Nat.toDigits 10 n).length

/-- The exponent of the first digit of `num / den`. -/
def leadingExponent (num den : Nat) : Int :=
  let e : Int := digitCount num - digitCount den
  let (n, d) :=
    match e with
    | .ofNat k => (num, den * Nat.pow 10 k)
    | .negSucc k => (num * Nat.pow 10 (k + 1), den)
  if d ≤ n then e else e - 1

/-- The decimal `digits · 10 ^ exponent`. -/
structure Digits where
  digits : Nat
  exponent : Int
deriving DecidableEq, Repr

/-- The decimal of the span on the grid of multiples of `10 ^ exponent` that is
nearest to its value; of two equally near ones the even one. -/
def Span.onGrid? (s : Span) (exponent : Int) : Option Digits :=
  let (scale, grid) :=
    match exponent with
    | .ofNat k => (1, s.den * Nat.pow 10 k)
    | .negSucc k => (Nat.pow 10 (k + 1), s.den)
  let value := s.value * scale
  let inside (d : Nat) : Bool :=
    let p := d * grid
    if s.closed then s.low * scale ≤ p && p ≤ s.high * scale
    else s.low * scale < p && p < s.high * scale
  let d := value / grid
  let below := value - d * grid
  let above := (d + 1) * grid - value
  match inside d && 0 < d, inside (d + 1) with
  | false, false => none
  | true, false => some ⟨d, exponent⟩
  | false, true => some ⟨d + 1, exponent⟩
  | true, true =>
    if below < above ∨ (below = above ∧ d % 2 = 0) then some ⟨d, exponent⟩
    else some ⟨d + 1, exponent⟩

/-- The shortest digits of a span. Seventeen digits always suffice. -/
def Span.shortest (s : Span) : Digits :=
  let e := leadingExponent s.value s.den
  ((List.range 17).findSome? fun (n : Nat) => s.onGrid? (e - n)).getD ⟨s.value / s.den, 0⟩

/-- Moves trailing zeros of the digits into the exponent, at most `fuel` of them. -/
def Digits.strip (d : Digits) : Nat → Digits
  | 0 => d
  | fuel + 1 =>
    if d.digits % 10 = 0 ∧ d.digits ≠ 0 then Digits.strip ⟨d.digits / 10, d.exponent + 1⟩ fuel
    else d

/-- The least exponent of a first digit that is shown with a point and no power. -/
def leastPlain : Int := -5

/-- The greatest exponent of a first digit that is shown with a point and no power. -/
def greatestPlain : Int := 15

/-- A power of ten: its sign, then its digits. -/
def powerText (e : Int) : String :=
  let sign := if e < 0 then "-" else "+"
  s!"e{sign}{e.natAbs}"

/-- Decimal text: with a point between digits for moderate sizes, else with one
digit before the point and a power of ten. -/
def Digits.text (d : Digits) : String :=
  let d := d.strip 20
  let ds := Nat.toDigits 10 d.digits
  let first : Int := d.exponent + ds.length - 1
  let zeros (n : Nat) : String := String.ofList (List.replicate n '0')
  if leastPlain ≤ first ∧ first ≤ greatestPlain then
    if 0 ≤ d.exponent then String.ofList ds ++ zeros d.exponent.toNat ++ ".0"
    else if 0 ≤ first then
      let n := first.toNat + 1
      String.ofList (ds.take n) ++ "." ++ String.ofList (ds.drop n)
    else "0." ++ zeros (-first - 1).toNat ++ String.ofList ds
  else
    match ds with
    | [c] => c.toString ++ powerText first
    | c :: cs => c.toString ++ "." ++ String.ofList cs ++ powerText first
    | [] => powerText first

/-- The text of a double, given by its bits. -/
def text (bits : UInt64) : String :=
  let sign := if bits >>> 63 = 0 then "" else "-"
  let exponent := ((bits >>> 52) &&& 0x7ff).toNat
  let fraction := (bits &&& 0xfffffffffffff).toNat
  if exponent = 0x7ff then
    if fraction = 0 then sign ++ "inf" else "NaN"
  else if exponent = 0 ∧ fraction = 0 then sign ++ "0.0"
  else sign ++ (Span.ofBits exponent fraction).shortest.text

end Decimal

end Nullness
