import Nullness.Json.Tree

/-!
# Values of an expected form

Readers for values whose form is known beforehand. A value of another form is a
mismatch: behind the value if it is a scalar, in front of it if it is a container.
-/

namespace Nullness

namespace Json

/-- How a scalar that was found is shown. -/
def Found.ofScalar : Json → Found
  | .null => .null
  | .bool b => .bool b
  | .num n => .num n
  | .str s => .str s
  | .arr _ => .list
  | .obj _ => .object

namespace Reader

variable {α : Type}

/-- Faults at a value that is not as expected. -/
def unexpected (expected : String) : Reader α := do
  match ← peek with
  | some '[' => failBefore (.mismatch (.wrongType .list expected))
  | some '{' => failBefore (.mismatch (.wrongType .object expected))
  | _ =>
    let v ← scalar
    failBefore (.mismatch (.wrongType (.ofScalar v) expected))

/-- A string. -/
def string : Reader String := do
  blanks
  if ← eat '"' then literalRest else unexpected "a string"

def boolean : Reader Bool := do
  blanks
  match ← peek with
  | some 't' =>
    advance
    word ['r', 'u', 'e']
    return true
  | some 'f' =>
    advance
    word ['a', 'l', 's', 'e']
    return false
  | _ => unexpected "a boolean"

/-- The word for nothing. -/
def nothing (expected : String) : Reader Unit := do
  blanks
  if ← eat 'n' then word ['u', 'l', 'l'] else unexpected expected

/-- The greatest number of 32 bits. -/
def greatestWord : Nat := 4294967295

/-- A number of 32 bits without a sign. -/
def word32 : Reader Nat := do
  blanks
  match ← peek with
  | some c =>
    if c = '-' ∨ c.isDigit then
      match ← number with
      | .int (.ofNat n) =>
        if n ≤ greatestWord then return n else failBefore (.mismatch (.tooWide n))
      | .int n => failBefore (.mismatch (.tooWide n))
      | .float bits => failBefore (.mismatch (.wrongType (.num (.float bits)) "u32"))
    else unexpected "u32"
  | none => unexpected "u32"

/-- A value, or the word for nothing. -/
def optional (r : Reader α) : Reader (Option α) := do
  blanks
  if ← eat 'n' then
    word ['u', 'l', 'l']
    return none
  else some <$> r

/-- A list of values read by `element`. -/
def list (element : Nat → Reader α) (levels : Nat) : Reader (List α) := do
  blanks
  if (← peek) = some '[' then
    enclosed .list levels fun levels => elements fun _ => element levels
  else unexpected "a sequence"

/-- The only key of an object. -/
def onlyKey : Reader String := do
  blanks
  match ← peek with
  | none => fail (.endWithin .object)
  | some c =>
    if c = '"' then
      advance
      literalRest
    else fail (if c = '}' then .expectedValue else .keyNotString)

/-- What one of several words stands for. The word is a string, or the only key of an
object in which it has nothing as its value. -/
def oneOf (words : List String) (ofWord? : String → Option α) (levels : Nat) : Reader α := do
  let meaning (w : String) : Reader α :=
    match ofWord? w with
    | some a => return a
    | none => failBefore (.mismatch (.unknownVariant w words))
  blanks
  match ← peek with
  | none => fail (.endWithin .value)
  | some c =>
    if c = '"' then
      advance
      meaning (← literalRest)
    else if c = '{' then
      match levels with
      | 0 => fail .tooDeep
      | _ + 1 =>
        advance
        let w ← onlyKey
        let a ← meaning w
        colon
        (nothing "unit").within (.key w)
        blanks
        match ← peek with
        | none => fail (.endWithin .object)
        | some d =>
          if d = '}' then
            advance
            return a
          else failBefore .expectedValue
    else fail .expectedValue

end Reader

end Json

end Nullness
