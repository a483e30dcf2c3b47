import Nullness.Text.Split
import Nullness.Url.Percent
import Nullness.Url.Scheme

/-!
# Paths

A rooted path is a row of segments, each behind a slash. It is found by a walk along
a text: segments of one or two dots are steps, which stay in place or go up. No step
goes up from a drive. A path without a root is plain text.

Drives matter most in the paths of files. One in front is written with a colon and
stands in the place of the host, and a tab or line end behind it ends its segment.
-/

namespace Nullness

namespace Url

/-- The path of a URL. -/
inductive Path
  | rooted (segments : List (List Char))
  | rootless (text : List Char)
deriving DecidableEq, Repr

def Path.text : Path → List Char
  | rooted segments => segments.flatMap ('/' :: ·)
  | rootless text => text

/-! ## Segments -/

/-- A dot, plain or encoded, at the front, and what is behind it. -/
def afterDot? : List Char → Option (List Char)
  | '.' :: cs => some cs
  | '%' :: '2' :: e :: cs => if e = 'e' ∨ e = 'E' then some cs else none
  | _ => none

/-- A segment of one dot. -/
def isDot (s : List Char) : Bool := afterDot? s == some []

/-- A segment of two dots. -/
def isDoubleDot (s : List Char) : Bool := (afterDot? s).bind afterDot? == some []

/-- A letter and a colon or a bar: the name of a drive. -/
def isDrive : List Char → Bool
  | [c, d] => c.isAlpha && (d == ':' || d == '|')
  | _ => false

/-- The name of a drive, alone or before a backslash. No step leads above it. -/
def startsWithDrive (s : List Char) : Bool :=
  isDrive (s.take 2) && (s.drop 2).head?.all (· == '\\')

/-- The name of a drive with a break behind its colon, and what is left of the
segment behind the break. -/
def brokenDrive? (s : List Char) : Option (List Char × List Char) :=
  match s.dropWhile isBreak with
  | [] => none
  | c :: s =>
    match s.dropWhile isBreak with
    | ':' :: b :: s =>
      let rest := unbroken s
      if c.isAlpha && isBreak b && !rest.isEmpty then some ([c, ':'], rest) else none
    | _ => none

/-! ## Walks -/

/-- Where a walk along a path has come. -/
structure Walk where
  above : List (List Char) := []
  /-- It began at a drive. -/
  fromDrive : Bool := false
deriving DecidableEq, Repr

namespace Walk

/-- Into a segment. -/
def enter (w : Walk) (s : List Char) : Walk := { w with above := w.above ++ [s] }

/-- To the segment before the last one. -/
def up (w : Walk) : Walk :=
  if w.above.getLast?.any startsWithDrive then w else { w with above := w.above.dropLast }

/-- Takes one segment, without breaks. The last one is a place even if it is only a
step. -/
def take (kind : SchemeKind) (isLast : Bool) (w : Walk) (s : List Char) : Walk :=
  let arrive (w : Walk) : Walk := if isLast then w.enter [] else w
  if isDoubleDot s then arrive w.up
  else if isDot s then arrive w
  else if kind = .file ∧ w.above = [] ∧ isDrive s then
    { above := [s.take 1 ++ [':']], fromDrive := true }
  else w.enter s

/-- Takes one segment. -/
def takeBroken (kind : SchemeKind) (isLast : Bool) (w : Walk) (s : List Char) : Walk :=
  match if kind = .file ∧ w.above = [] then brokenDrive? s else none with
  | some (drive, rest) => (w.enter drive).enter (encode pathSet rest)
  | none => w.take kind isLast (encode pathSet (unbroken s))

/-- Takes a row of segments. -/
def takeAll (kind : SchemeKind) (w : Walk) : List (List Char) → Walk
  | [] => w
  | [s] => w.takeBroken kind true s
  | s :: ss => (w.takeBroken kind false s).takeAll kind ss

/-- The walk along a text behind the root. -/
def along (kind : SchemeKind) (s : List Char) : Walk :=
  takeAll kind {} (Text.split kind.endsSegment s)

/-- The path that a walk has found. That of a file does not begin with an empty
segment. -/
def path (kind : SchemeKind) (w : Walk) : Path :=
  if kind = .file then
    match w.above.dropWhile List.isEmpty with
    | [] => .rooted [[]]
    | ss => .rooted ss
  else .rooted w.above

end Walk

/-- The path that a text with its root writes. -/
def Path.ofText (kind : SchemeKind) (s : List Char) : Path :=
  (Walk.along kind s.tail).path kind

end Url

end Nullness
