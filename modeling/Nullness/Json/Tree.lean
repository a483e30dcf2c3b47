import Nullness.Json.Container
import Nullness.Json.Number

/-!
# Whole values

A reader for any value. Containers nest to a bounded depth: `levels` is the number
of containers that may still be opened.
-/

namespace Nullness

namespace Json

namespace Reader

variable {α : Type}

/-- The rest of a word whose beginning is known. -/
def word : List Char → Reader Unit
  | [] => return ()
  | c :: cs => do
    match ← peek with
    | none => fail (.endWithin .value)
    | some d =>
      if d = c then
        advance
        word cs
      else fail .expectedWord

/-- A value that is no container, at the next character. -/
def scalar : Reader Json := do
  match ← peek with
  | none => fail (.endWithin .value)
  | some c =>
    if c = 'n' then
      advance
      word ['u', 'l', 'l']
      return .null
    else if c = 't' then
      advance
      word ['r', 'u', 'e']
      return .bool true
    else if c = 'f' then
      advance
      word ['a', 'l', 's', 'e']
      return .bool false
    else if c = '"' then
      advance
      return .str (← literalRest)
    else if c = '-' ∨ c.isDigit then return .num (← number)
    else fail .expectedValue

/-- Opens a container, reads what is in it and closes it. The reader of the contents
is told how many containers may be opened inside. -/
def enclosed (b : Bracket) (levels : Nat) (contents : Nat → Reader α) : Reader α :=
  match levels with
  | 0 => fail .tooDeep
  | levels + 1 => do
    advance
    let a ← contents levels
    close b
    return a

/-- An entry of an object, read by `value`, behind those in `acc`. -/
def treeEntry (value : Reader Json) (k : String) (acc : Array (String × Json)) :
    Reader (Array (String × Json) ⊕ Json) := do
  colon
  let v ← value.within (.key k)
  return .inl (acc.push (k, v))

/-- Any value. -/
def tree (levels : Nat) : Reader Json := do
  blanks
  match ← peek with
  | some '[' =>
    match levels with
    | 0 => fail .tooDeep
    | levels + 1 => do
      advance
      let es ← elements fun _ => tree levels
      close .list
      return .arr es
  | some '{' =>
    match levels with
    | 0 => fail .tooDeep
    | levels + 1 => do
      advance
      let v ← entries (treeEntry (tree levels)) (fun acc => .obj acc.toList) #[]
      close .object
      return v
  | _ => scalar

end Reader

end Json

end Nullness
