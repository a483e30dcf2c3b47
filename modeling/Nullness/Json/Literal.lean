import Nullness.Json.Reader
import Nullness.Text.Hex

/-!
# String literals

Characters stand for themselves, except quotes, backslashes and controls. A
backslash starts an escape: one letter, or `u` with four hexadecimal digits. A
character beyond the first plane takes two such escapes, its surrogates.
-/

namespace Nullness

namespace Json

/-- What an escape of one letter stands for. -/
def shortEscape? (c : Char) : Option Char :=
  if c = '"' ∨ c = '\\' ∨ c = '/' then some c
  else if c = 'b' then some '\x08'
  else if c = 'f' then some '\x0c'
  else if c = 'n' then some '\n'
  else if c = 'r' then some '\r'
  else if c = 't' then some '\t'
  else none

/-- A code unit that comes first in a pair. -/
def isLeading (u : Nat) : Bool := 0xd800 ≤ u && u ≤ 0xdbff

/-- A code unit that comes second in a pair. -/
def isTrailing (u : Nat) : Bool := 0xdc00 ≤ u && u ≤ 0xdfff

/-- The character that a pair of surrogates stands for. -/
def ofSurrogates (leading trailing : Nat) : Char :=
  Char.ofNat (0x10000 + (leading - 0xd800) * 0x400 + (trailing - 0xdc00))

/-- A character that must not stand for itself in a literal. -/
def isControl (c : Char) : Bool := c < ' '

namespace Reader

theorem length_le_cons₄ (a b c d : Char) (t : List Char) :
    t.length ≤ (a :: b :: c :: d :: t).length := by
  simp only [List.length_cons]
  omega

/-- Four hexadecimal digits. They are taken as four bytes, whatever these are. -/
def codeUnit : Reader Nat := fun s =>
  match s with
  | a :: b :: c :: d :: t =>
    match Text.hexNat? [a, b, c, d] with
    | some n => .ok ⟨n, t, length_le_cons₄ a b c d t⟩
    | none => .error { cause := .invalidEscape, left := byteCount s - 4 }
  | s =>
    if byteCount s < 4 then .error (.here (.endWithin .string) [])
    else .error { cause := .invalidEscape, left := byteCount s - 4 }

/-- A character that a literal cannot do without. -/
def require (c : Char) : Reader Unit := do
  match ← peek with
  | none => fail (.endWithin .string)
  | some d => if d = c then advance else fail .halfSurrogatePair

/-- What stands behind a backslash and `u`. -/
def unicodeEscape : Reader Char := do
  let u ← codeUnit
  if isTrailing u then failBefore .loneSurrogate
  else if isLeading u then
    require '\\'
    require 'u'
    let v ← codeUnit
    if isTrailing v then return ofSurrogates u v
    else failBefore .loneSurrogate
  else return Char.ofNat u

/-- What stands behind a backslash. -/
def escape : Reader Char := do
  match ← peek with
  | none => fail (.endWithin .string)
  | some 'u' =>
    advance
    unicodeEscape
  | some c =>
    match shortEscape? c with
    | some d =>
      advance
      return d
    | none => fail .invalidEscape

/-- One more character of a literal, after those in `acc`, or its end. -/
def literalStep : Step (List Char) String := fun acc s =>
  match s with
  | [] => .error (.here (.endWithin .string) [])
  | c :: t =>
    if c = '"' then .ok (.done (String.ofList acc.reverse) t (length_le_cons c t))
    else if c = '\\' then again c t (length_cons_le_refl c t) ((· :: acc) <$> escape)
    else if isControl c then .error (.here .controlCharacter (c :: t))
    else .ok (.again (c :: acc) t (length_lt_cons c t))

/-- The rest of a string literal behind its opening quote. -/
def literalRest : Reader String :=
  loop literalStep []

end Reader

end Json

end Nullness
