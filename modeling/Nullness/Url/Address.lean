import Nullness.Text.Hex
import Nullness.Text.Split

/-!
# Numeric host addresses

An address of version 4 is up to four numbers between points; each is decimal, octal
after a zero or hexadecimal after `0x`, and the last one fills what the others leave.
An address of version 6 is eight pieces of sixteen bits between colons; one run of
zero pieces may be left out, and the last two pieces may be written as an address of
version 4 in its plainest form.
-/

namespace Nullness

namespace Url

/-- The number that digits below the base write. -/
def number? (base : Nat) (cs : List Char) : Option Nat :=
  cs.foldlM (fun n c => (Text.hexValue? c).bind fun d =>
    if d < base then some (n * base + d) else none) 0

/-! ## Version 4 -/

/-- One number of an address of version 4. -/
def part4? : List Char → Option Nat
  | [] => none
  | ['0'] => some 0
  | '0' :: x :: cs => if x = 'x' ∨ x = 'X' then number? 16 cs else number? 8 (x :: cs)
  | cs => number? 10 cs

/-- The parts of a host between points, without an empty last one. -/
def hostParts (host : List Char) : List (List Char) :=
  let parts := Text.split (· == '.') host
  if parts.getLast? = some [] then parts.dropLast else parts

/-- The host has to be an address of version 4. -/
def endsInNumber (host : List Char) : Bool :=
  match (hostParts host).getLast? with
  | none => false
  | some last => !last.isEmpty && (last.all Char.isDigit || (part4? last).isSome)

/-- The address of version 4 that a host writes. -/
def address4? (host : List Char) : Option Nat :=
  let parts := hostParts host
  match parts.mapM part4? with
  | none => none
  | some numbers =>
    match numbers.getLast? with
    | none => none
    | some last =>
      let front := numbers.dropLast
      if 3 < front.length then none
      else if front.any (255 < ·) then none
      else
        let room := Nat.pow 256 (4 - front.length)
        if room ≤ last then none
        else some (front.foldl (fun a n => a * 256 + n) 0 * room + last)

/-- The text of an address of version 4. -/
def address4Text (a : Nat) : List Char :=
  let byte (unit : Nat) : List Char := Nat.toDigits 10 (a / unit % 256)
  byte 16777216 ++ ['.'] ++ byte 65536 ++ ['.'] ++ byte 256 ++ ['.'] ++ byte 1

/-! ## Version 6 -/

/-- A number up to 255, without needless zeros. -/
def plainByte? (cs : List Char) : Option Nat :=
  if cs = ['0'] then some 0
  else if cs.isEmpty || cs.head? = some '0' then none
  else
    match number? 10 cs with
    | none => none
    | some n => if n < 256 then some n else none

/-- The two pieces that an address of version 4 in its plainest form stands for. -/
def embedded? (cs : List Char) : Option (List Nat) :=
  match (Text.split (· == '.') cs).mapM plainByte? with
  | some [a, b, c, d] => some [a * 256 + b, c * 256 + d]
  | _ => none

/-- One piece of an address of version 6. -/
def piece? (cs : List Char) : Option Nat :=
  if cs.isEmpty || 4 < cs.length then none else number? 16 cs

/-- Pieces between colons. The last one may stand for two. -/
def pieces? : List (List Char) → Option (List Nat)
  | [] => some []
  | [last] => ((piece? last).map ([·])) <|> embedded? last
  | p :: ps =>
    match piece? p, pieces? ps with
    | some n, some ns => some (n :: ns)
    | _, _ => none

/-- The text before the first two colons in a row, and the text behind them. -/
def splitGap? : List Char → Option (List Char × List Char)
  | ':' :: ':' :: rest => some ([], rest)
  | c :: rest => (splitGap? rest).map fun (front, back) => (c :: front, back)
  | [] => none

/-- Pieces on one side of the gap. -/
def side? (cs : List Char) : Option (List Nat) :=
  if cs.isEmpty then some [] else pieces? (Text.split (· == ':') cs)

/-- The eight pieces of the address of version 6 that a text writes. -/
def address6? (cs : List Char) : Option (List Nat) :=
  match splitGap? cs with
  | none =>
    match side? cs with
    | some ns => if ns.length = 8 then some ns else none
    | none => none
  | some (front, back) =>
    if front.contains '.' then none
    else
      match side? front, side? back with
      | some ns, some ms =>
        if ns.length + ms.length ≤ 7 then
          some (ns ++ List.replicate (8 - ns.length - ms.length) 0 ++ ms)
        else none
      | _, _ => none

/-- The number of zeros in front. -/
def zeroRun (ns : List Nat) : Nat := (ns.takeWhile (· == 0)).length

/-- The longest run of zeros, as the number of pieces before it and its length; of
equally long ones the first. -/
def longestZeroRun : List Nat → Nat × Nat
  | [] => (0, 0)
  | n :: ns =>
    let here := zeroRun (n :: ns)
    let (start, length) := longestZeroRun ns
    if length ≤ here then (0, here) else (start + 1, length)

/-- Pieces between colons. -/
def piecesText (ns : List Nat) : List Char :=
  [':'].intercalate (ns.map (Nat.toDigits 16))

/-- The text of an address of version 6: its longest run of two zero pieces or more
is left out. -/
def address6Text (ns : List Nat) : List Char :=
  let (start, length) := longestZeroRun ns
  if length < 2 then piecesText ns
  else piecesText (ns.take start) ++ [':', ':'] ++ piecesText (ns.drop (start + length))

end Url

end Nullness
