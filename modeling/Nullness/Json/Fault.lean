import Nullness.Json.Value
import Nullness.Text.Quoted
import Nullness.Decimal.Shortest

/-!
# What can be wrong with a JSON text

A fault has a cause, a path to the value that was being read, and a place in the
text. Causes fall into three categories: the text ends too early, it is not JSON,
or it is JSON of the wrong form.

While a text is being read a place is the number of bytes not read yet. It becomes
a line and a column only when the whole text is at hand.
-/

namespace Nullness

namespace Json

/-- What stood where something else was expected. -/
inductive Found
  | null
  | bool (b : Bool)
  | num (n : Number)
  | str (s : String)
  | list
  | object

/-- The number of values that a record holds, for messages. -/
structure RecordShape where
  name : String
  size : Nat

/-- JSON that has the wrong form. -/
inductive Mismatch
  | wrongType (found : Found) (expected : String)
  /-- A number that does not fit 32 bits without a sign. -/
  | tooWide (n : Int)
  | unknownField (name : String) (known : List String)
  | unknownVariant (name : String) (known : List String)
  | missingField (name : String)
  | duplicateField (name : String)
  | wrongLength (length : Nat) (shape : RecordShape)
  /-- A value that has none of the forms of an argument value. -/
  | noForm

/-- What a text may end within. -/
inductive Part
  | list
  | object
  | string
  | value
deriving DecidableEq, Repr

/-- Why a text cannot be read. -/
inductive Cause
  | endWithin (p : Part)
  | expectedColon
  | expectedCommaOrBracket
  | expectedCommaOrBrace
  | expectedWord
  | expectedValue
  | invalidEscape
  | invalidNumber
  | numberOutOfRange
  | controlCharacter
  | keyNotString
  | loneSurrogate
  | halfSurrogatePair
  | trailingComma
  | trailingCharacters
  | tooDeep
  | mismatch (m : Mismatch)

/-- The three categories of causes. -/
inductive Category
  | early
  | malformed
  | wrongForm
deriving DecidableEq, Repr

def Cause.category : Cause → Category
  | endWithin _ => .early
  | mismatch _ => .wrongForm
  | _ => .malformed

/-! ## Messages -/

def Found.message : Found → String
  | null => "null"
  | bool b => s!"boolean `{b}`"
  | num (.int n) => s!"integer `{n}`"
  | num (.float bits) => s!"floating point `{Decimal.text bits}`"
  | str s => s!"string {Text.quote s}"
  | list => "sequence"
  | object => "map"

/-- Names in a row, each between grave accents. -/
def quotedNames (names : List String) : String :=
  ", ".intercalate (names.map fun n => s!"`{n}`")

/-- What may stand instead of an unknown name. -/
def expectation : List String → String
  | [a] => s!"expected `{a}`"
  | [a, b] => s!"expected `{a}` or `{b}`"
  | names => s!"expected one of {quotedNames names}"

def RecordShape.message (s : RecordShape) : String :=
  if s.size = 1 then s!"struct {s.name} with 1 element"
  else s!"struct {s.name} with {s.size} elements"

def Mismatch.message : Mismatch → String
  | wrongType found expected => s!"invalid type: {found.message}, expected {expected}"
  | tooWide n => s!"invalid value: integer `{n}`, expected u32"
  | unknownField name known => s!"unknown field `{name}`, {expectation known}"
  | unknownVariant name known => s!"unknown variant `{name}`, {expectation known}"
  | missingField name => s!"missing field `{name}`"
  | duplicateField name => s!"duplicate field `{name}`"
  | wrongLength length shape => s!"invalid length {length}, expected {shape.message}"
  | noForm => "data did not match any variant of untagged enum ValueRecord"

def Part.message : Part → String
  | list => "EOF while parsing a list"
  | object => "EOF while parsing an object"
  | string => "EOF while parsing a string"
  | value => "EOF while parsing a value"

def Cause.message : Cause → String
  | endWithin p => p.message
  | expectedColon => "expected `:`"
  | expectedCommaOrBracket => "expected `,` or `]`"
  | expectedCommaOrBrace => "expected `,` or `\x7d`"
  | expectedWord => "expected ident"
  | expectedValue => "expected value"
  | invalidEscape => "invalid escape"
  | invalidNumber => "invalid number"
  | numberOutOfRange => "number out of range"
  | controlCharacter =>
    "control character (\\u0000-\\u001F) found while parsing a string"
  | keyNotString => "key must be a string"
  | loneSurrogate => "lone leading surrogate in hex escape"
  | halfSurrogatePair => "unexpected end of hex escape"
  | trailingComma => "trailing comma"
  | trailingCharacters => "trailing characters"
  | tooDeep => "recursion limit exceeded"
  | mismatch m => m.message

/-! ## Paths -/

/-- One step from a value to a value inside it. -/
inductive Segment
  | key (name : String)
  | index (i : Nat)
  /-- An entry whose key could not be read. -/
  | lost
deriving DecidableEq, Repr

/-- The text of one step. -/
def Segment.text : Segment → String
  | key name => name
  | index i => s!"[{i}]"
  | lost => "?"

/-- The text of the steps after the first, each after a point save indexes. -/
def furtherText : List Segment → String
  | [] => ""
  | .index i :: rest => Segment.text (.index i) ++ furtherText rest
  | s :: rest => "." ++ s.text ++ furtherText rest

/-- The text of a path. -/
def pathText : List Segment → String
  | [] => ""
  | s :: rest => s.text ++ furtherText rest

/-! ## Places -/

/-- The number of bytes of a text in UTF-8. -/
def byteCount (s : List Char) : Nat :=
  s.foldl (fun n c => n + c.utf8Size) 0

/-- A line, counted from one, and the number of bytes on it so far. -/
structure Place where
  line : Nat := 1
  column : Nat := 0
deriving DecidableEq, Repr

/-- The place that is `n` bytes after `p`, which may be inside a character. -/
def Place.forward (p : Place) : Nat → List Char → Place
  | _, [] => p
  | n, c :: rest =>
    if n < c.utf8Size then { p with column := p.column + n }
    else
      let p := if c = '\n' then ⟨p.line + 1, 0⟩ else { p with column := p.column + c.utf8Size }
      p.forward (n - c.utf8Size) rest

/-! ## Faults -/

/-- Why and where reading stopped. -/
structure Fault where
  cause : Cause
  path : List Segment := []
  /-- The number of bytes from the place of the fault to the end of the text. -/
  left : Nat

/-- A fault at the first character of `s`, the text left. -/
def Fault.here (cause : Cause) (s : List Char) : Fault where
  cause := cause
  left := byteCount s - 1

/-- The fault of something that contains what `f` is a fault of. -/
def Fault.within (seg : Segment) (f : Fault) : Fault :=
  { f with path := seg :: f.path }

/-- A fault with its place in the text. -/
structure Diagnosis where
  cause : Cause
  path : List Segment
  place : Place

/-- Finds the place of a fault in the text that was read. -/
def Fault.locate (f : Fault) (whole : List Char) : Diagnosis where
  cause := f.cause
  path := f.path
  place := Place.forward {} (byteCount whole - f.left) whole

/-- The message of a fault. A path that leads to nothing with a name is left out. -/
def Diagnosis.message (d : Diagnosis) : String :=
  let path := if d.path.all (· = .lost) then "" else pathText d.path ++ ": "
  s!"{path}{d.cause.message} at line {d.place.line} column {d.place.column}"

end Json

end Nullness
