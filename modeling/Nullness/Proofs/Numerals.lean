import Mathlib
import Nullness.Json.Number

/-!
# Numbers as they are written

A number is written as a sign, digits, digits behind a point and an exponent, of which only the
digits in front have to be there. What it stands for is told apart by its form: without a
fraction and an exponent it is an integer, if that fits 64 bits, and else a double. Minus zero
is a double. A double may be out of range, and then the number stands for nothing.

- `Json.Numeral`: a number as it is written.
- `Json.Numeral.Denotes`, `Json.Numeral.OutOfRange`: what it stands for, and that it stands for
  nothing.
- `Json.Numeral.ofInt`: the digits of an integer.
-/

namespace Nullness

namespace Json

/-- The exponent of a number, as it is written. -/
structure Exponent where
  mark : Char
  sign : List Char
  digits : List Char
  mark_mem : mark ∈ ['e', 'E']
  sign_mem : sign ∈ [[], ['+'], ['-']]
  digits_ne : digits ≠ []
  digits_isDigit : ∀ c ∈ digits, c.isDigit = true

/-- A number as it is written. -/
structure Numeral where
  /-- There is a minus in front. -/
  negative : Bool
  whole : List Char
  fraction : Option (List Char)
  exponent : Option Exponent
  whole_ne : whole ≠ []
  whole_isDigit : ∀ c ∈ whole, c.isDigit = true
  /-- A zero in front stands alone. -/
  whole_zero : whole.head? = some '0' → whole = ['0']
  fraction_ne : ∀ ds ∈ fraction, ds ≠ []
  fraction_isDigit : ∀ ds ∈ fraction, ∀ c ∈ ds, c.isDigit = true

/-- The integer fits 64 bits, with or without a sign. -/
def FitsWord (n : Int) : Prop :=
  -9223372036854775808 ≤ n ∧ n ≤ 18446744073709551615

instance (n : Int) : Decidable (FitsWord n) :=
  inferInstanceAs (Decidable (_ ∧ _))

def Exponent.text (e : Exponent) : List Char := e.mark :: (e.sign ++ e.digits)

namespace Numeral

variable {l : Numeral} {n : Number}

def fractionText (l : Numeral) : List Char := l.fraction.elim [] ('.' :: ·)

def exponentText (l : Numeral) : List Char := l.exponent.elim [] Exponent.text

/-- The characters of a number. -/
def text (l : Numeral) : List Char :=
  (if l.negative then ['-'] else []) ++ (l.whole ++ (l.fractionText ++ l.exponentText))

/-- The parts that a reader finds. -/
def parts (l : Numeral) : NumberParts where
  negative := l.negative
  whole := l.whole
  fraction := l.fraction
  exponent := l.exponent.map fun e => (decide (e.sign = ['-']), e.digits)

/-- The number that the digits in front write, with its sign. -/
def integer (l : Numeral) : Int :=
  let n := Nat.ofDigitChars 10 l.whole 0
  if l.negative then -n else n

/-- The number is an integer: it has neither fraction nor exponent, it fits 64 bits, and it is
not minus zero. -/
structure IsInteger (l : Numeral) : Prop where
  fraction : l.fraction = none
  exponent : l.exponent = none
  fits : FitsWord l.integer
  nonzero : l.negative = true → l.integer ≠ 0

/-- What a number stands for. -/
inductive Denotes (l : Numeral) : Number → Prop
  | integer (h : l.IsInteger) : Denotes l (.int l.integer)
  | double {bits : UInt64} (h : ¬ l.IsInteger) (hbits : l.parts.double = .ok bits) :
      Denotes l (.float bits)

/-- The number is no integer, and as a double it is out of range. -/
def OutOfRange (l : Numeral) : Prop :=
  ¬ l.IsInteger ∧ ∃ unread, l.parts.double = .error unread

/-- A number stands for something unless it is out of range. -/
theorem denotes_or_outOfRange (l : Numeral) : (∃ n, l.Denotes n) ∨ l.OutOfRange := by
  by_cases hint : l.IsInteger
  · exact Or.inl ⟨_, .integer hint⟩
  · cases hdouble : l.parts.double with
    | ok bits => exact Or.inl ⟨_, .double hint hdouble⟩
    | error unread => exact Or.inr ⟨hint, unread, hdouble⟩

end Numeral

/-! ## Digits -/

section Digits
variable {m m' : Nat} {ds : List Char}

/-- As long as all digits fit, none is left over. -/
theorem absorb_eq (h : Nat.ofDigitChars 10 ds m ≤ greatestUnsigned) :
    absorb m ds = (Nat.ofDigitChars 10 ds m, []) := by
  induction ds generalizing m with
  | nil => rfl
  | cons c ds ih =>
      rw [Nat.ofDigitChars_cons] at h ⊢
      have hnext : m * 10 + digitValue c = 10 * m + (c.toNat - '0'.toNat) := by
        rw [Nat.mul_comm, digitValue]
      have hle : 10 * m + (c.toNat - '0'.toNat) ≤ greatestUnsigned := by
        refine Nat.le_trans ?_ h
        rw [Nat.ofDigitChars_eq_ofDigitChars_zero]
        exact Nat.le_add_right_of_le (Nat.le_mul_of_pos_left _ (Nat.pow_pos (by decide)))
      rw [absorb, hnext, if_pos hle]
      exact ih h

/-- If no digit is left over, all of them fit. -/
theorem ofDigitChars_le_of_absorb (hm : m ≤ greatestUnsigned) (h : absorb m ds = (m', [])) :
    Nat.ofDigitChars 10 ds m ≤ greatestUnsigned := by
  induction ds generalizing m with
  | nil => exact hm
  | cons c ds ih =>
      have hnext : m * 10 + digitValue c = 10 * m + (c.toNat - '0'.toNat) := by
        rw [Nat.mul_comm, digitValue]
      rw [Nat.ofDigitChars_cons]
      rw [absorb, hnext] at h
      split at h
      · next hle => exact ih hle h
      · cases h

/-- Only zero is written with a zero in front. -/
theorem toDigits_head (n : Nat) : ∃ c ds, Nat.toDigits 10 n = c :: ds ∧ c.isDigit = true ∧
    (c = '0' → n = 0) := by
  cases h : Nat.toDigits 10 n with
  | nil => exact absurd h Nat.toDigits_ne_nil
  | cons c ds =>
      have hdigit : c.isDigit = true :=
        Nat.isDigit_of_mem_toDigits (by decide) (by decide) (h ▸ List.mem_cons_self)
      refine ⟨c, ds, rfl, hdigit, ?_⟩
      induction n using Nat.strong_induction_on generalizing ds with
      | _ n ih =>
          rw [Nat.toDigits_eq_if (by decide)] at h
          split at h
          · next hlt =>
            cases h
            have hall : ∀ d < 10, d.digitChar = '0' → d = 0 := by decide
            exact hall n hlt
          · next hge =>
            -- the digits of the quotient stand in front
            cases hq : Nat.toDigits 10 (n / 10) with
            | nil => exact absurd hq Nat.toDigits_ne_nil
            | cons d es =>
                rw [hq, List.cons_append] at h
                obtain ⟨rfl, -⟩ := List.cons.inj h
                intro hc
                have hzero := ih (n / 10) (by omega) es hq hc
                omega

theorem toList_toString_ofNat (n : Nat) : (toString (Int.ofNat n)).toList = Nat.toDigits 10 n := by
  show (Nat.repr n).toList = _
  rw [Nat.repr_eq_ofList_toDigits, String.toList_ofList]

theorem toList_toString_negSucc (n : Nat) :
    (toString (Int.negSucc n)).toList = '-' :: Nat.toDigits 10 (n + 1) := by
  show ("-" ++ Nat.repr (n + 1)).toList = _
  simp [Nat.repr_eq_ofList_toDigits]

end Digits

namespace Numeral

variable {l : Numeral} {n : Number}

/-! ## Values -/

theorem integer?_parts_iff {m : Nat} {surplus : List Char} {i : Int}
    (habsorb : absorb 0 l.whole = (m, surplus)) :
    l.parts.integer? = some i ↔ (l.fraction = none ∧ l.exponent = none) ∧ surplus = [] ∧
      if l.negative then (0 < m ∧ m ≤ greatestNegated) ∧ -(m : Int) = i else (m : Int) = i := by
  rw [NumberParts.integer?]
  simp only [parts, habsorb]
  cases l.fraction <;> cases l.exponent <;> simp
  by_cases hs : surplus = []
  · cases l.negative <;> simp [hs]
  · simp [hs]

/-- The reader finds an integer exactly where one is written. -/
theorem integer?_parts {i : Int} : l.parts.integer? = some i ↔ l.IsInteger ∧ l.integer = i := by
  rcases habsorb : absorb 0 l.whole with ⟨m, surplus⟩
  rw [integer?_parts_iff habsorb]
  have hsigned : l.integer = if l.negative then -(Nat.ofDigitChars 10 l.whole 0 : Int)
      else Nat.ofDigitChars 10 l.whole 0 := rfl
  constructor
  · rintro ⟨⟨hfraction, hexponent⟩, rfl, hvalue⟩
    have hle := ofDigitChars_le_of_absorb (Nat.zero_le _) habsorb
    obtain ⟨rfl, -⟩ := Prod.mk.inj ((absorb_eq hle).symm.trans habsorb)
    simp only [greatestUnsigned, greatestNegated] at hle hvalue
    refine ⟨⟨hfraction, hexponent, ?_, fun hnegative => ?_⟩, ?_⟩
    · rw [hsigned, FitsWord]
      split_ifs at hvalue ⊢ <;> omega
    · rw [if_pos hnegative] at hvalue hsigned
      omega
    · rw [hsigned]
      split_ifs at hvalue ⊢ <;> omega
  · rintro ⟨⟨hfraction, hexponent, ⟨hleast, hgreatest⟩, hnonzero⟩, rfl⟩
    have hle : Nat.ofDigitChars 10 l.whole 0 ≤ greatestUnsigned := by
      rw [hsigned] at hleast hgreatest
      rw [greatestUnsigned]
      split_ifs at hleast hgreatest <;> omega
    obtain ⟨rfl, rfl⟩ := Prod.mk.inj ((absorb_eq hle).symm.trans habsorb)
    refine ⟨⟨hfraction, hexponent⟩, rfl, ?_⟩
    split
    · next hnegative =>
      have hnonzero := hnonzero hnegative
      rw [hsigned, if_pos hnegative] at hleast hnonzero
      refine ⟨⟨?_, ?_⟩, (hsigned.trans (if_pos hnegative)).symm⟩
      · omega
      · rw [greatestNegated]
        omega
    · next hpositive => exact (hsigned.trans (if_neg hpositive)).symm

/-- What is found if no integer is. -/
theorem integer?_parts_eq_none (h : ¬ l.IsInteger) : l.parts.integer? = none :=
  Option.eq_none_iff_forall_ne_some.mpr fun _ hi => h (integer?_parts.mp hi).1

/-! ## The digits of integers -/

/-- A part that is not there is not empty. -/
theorem ne_nil_of_mem_none : ∀ ds ∈ (none : Option (List Char)), ds ≠ [] := nofun

theorem isDigit_of_mem_none :
    ∀ ds ∈ (none : Option (List Char)), ∀ c ∈ ds, c.isDigit = true := nofun

/-- An integer, written by its digits. -/
def ofInt (i : Int) : Numeral where
  negative := decide (i < 0)
  whole := Nat.toDigits 10 i.natAbs
  fraction := none
  exponent := none
  whole_ne := Nat.toDigits_ne_nil
  whole_isDigit _ hc := Nat.isDigit_of_mem_toDigits (by decide) (by decide) hc
  whole_zero h := by
    obtain ⟨c, ds, hds, -, hzero⟩ := toDigits_head i.natAbs
    rw [hds, List.head?_cons, Option.some_inj] at h
    rw [hzero h, Nat.toDigits_zero]
  fraction_ne := ne_nil_of_mem_none
  fraction_isDigit := isDigit_of_mem_none

theorem text_ofInt (i : Int) : (ofInt i).text = (toString i).toList := by
  cases i with
  | ofNat n =>
      rw [toList_toString_ofNat]
      simp [text, ofInt, fractionText, exponentText]
  | negSucc n =>
      rw [toList_toString_negSucc]
      simp [text, ofInt, fractionText, exponentText]

theorem integer_ofInt (i : Int) : (ofInt i).integer = i := by
  have hvalue : Nat.ofDigitChars 10 (Nat.toDigits 10 i.natAbs) 0 = i.natAbs :=
    Nat.ofDigitChars_ten_toDigits
  simp only [integer, ofInt, hvalue, decide_eq_true_eq]
  split <;> omega

theorem denotes_ofInt {i : Int} (h : FitsWord i) : (ofInt i).Denotes (.int i) := by
  have hint : (ofInt i).IsInteger := by
    refine ⟨rfl, rfl, by rwa [integer_ofInt], fun hnegative => ?_⟩
    have hlt : i < 0 := of_decide_eq_true hnegative
    rw [integer_ofInt]
    omega
  have hdenotes := Denotes.integer hint
  rwa [integer_ofInt] at hdenotes

end Numeral

end Json

end Nullness
