/-!
# JSON values

A value as written: entries keep their order, a key may occur twice, and a number
is either an integer of at most 64 bits or a double.
-/

namespace Nullness

/-- A number: an integer, signed or unsigned, that fits 64 bits, or the bit pattern
of a double. -/
inductive Json.Number
  | int (n : Int)
  | float (bits : UInt64)
deriving DecidableEq, Repr, Inhabited

/-- A JSON value. -/
inductive Json
  | null
  | bool (b : Bool)
  | num (n : Json.Number)
  | str (s : String)
  | arr (elements : List Json)
  | obj (entries : List (String × Json))
deriving Inhabited

end Nullness
