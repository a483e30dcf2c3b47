import Nullness.Text.Hex

/-!
# Percent encoding

Characters that a part of a URL cannot hold are written as the bytes of their UTF-8
form, each as a percent sign and two hexadecimal digits. Every part has its own set
of such characters; what is not ASCII belongs to all of them.
-/

namespace Nullness

namespace Url

/-- A set of ASCII characters that a part of a URL cannot hold. -/
abbrev EncodeSet := Char → Bool

/-- Controls, and all that is not ASCII. -/
def controls : EncodeSet := fun c => c < ' ' || '~' < c

/-- Set of a fragment. -/
def fragmentSet : EncodeSet := fun c => controls c || [' ', '"', '<', '>', '`'].contains c

/-- Set of a path. -/
def pathSet : EncodeSet := fun c => fragmentSet c || ['#', '?', '{', '}'].contains c

/-- Set of a user name and a password. -/
def userSet : EncodeSet := fun c =>
  pathSet c || ['/', ':', ';', '=', '@', '[', '\\', ']', '^', '|'].contains c

/-- Set of a query. -/
def querySet : EncodeSet := fun c => controls c || [' ', '"', '#', '<', '>'].contains c

/-- Set of a query in a URL with a special scheme. -/
def specialQuerySet : EncodeSet := fun c => querySet c || c == '\''

/-- A hexadecimal digit, in upper case. -/
def hexDigit (n : Nat) : Char :=
  if n < 10 then Char.ofNat ('0'.toNat + n) else Char.ofNat ('A'.toNat + (n - 10))

/-- One byte, encoded. -/
def encodeByte (b : UInt8) : List Char :=
  ['%', hexDigit (b.toNat / 16), hexDigit (b.toNat % 16)]

/-- One character, encoded if it belongs to the set. -/
def encodeChar (set : EncodeSet) (c : Char) : List Char :=
  if set c then (String.utf8EncodeChar c).flatMap encodeByte else [c]

/-- A text, with the characters of a set encoded. -/
def encode (set : EncodeSet) (s : List Char) : List Char :=
  s.flatMap (encodeChar set)

/-- The bytes of a text, encoded ones and others. -/
def decodeBytes : List Char → List UInt8
  | [] => []
  | '%' :: h :: l :: rest =>
    match Text.hexNat? [h, l] with
    | some n => UInt8.ofNat n :: decodeBytes rest
    | none => '%'.toUInt8 :: decodeBytes (h :: l :: rest)
  | c :: rest => String.utf8EncodeChar c ++ decodeBytes rest

/-- The text whose bytes are encoded, if they are the bytes of a text. -/
def decode? (s : List Char) : Option (List Char) :=
  (String.fromUTF8? ⟨(decodeBytes s).toArray⟩).map String.toList

end Url

end Nullness
