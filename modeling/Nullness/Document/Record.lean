import Nullness.Json.Expect
import Nullness.Json.Skip

/-!
# Records

A record is an object with known keys, or the list of the values of its fields in
their order. Fields behind the last one written may be missing from the list, and
any field from the object, as long as the record can do without them.

Some mismatches concern a record as a whole: a key that is none of its fields, a
field that comes twice or not at all, a list that is too short. Such a complaint is
placed where the record ends, when its end can be seen.
-/

namespace Nullness

namespace Document

open Json (Reader Mismatch Segment Bracket RecordShape)
open Json.Reader

variable {σ α τ : Type}

/-- A mismatch whose place is still open. -/
structure Complaint where
  mismatch : Mismatch
  path : List Segment := []

/-- The complaint of something that contains what `c` is a complaint of. -/
def Complaint.within (seg : Segment) (c : Complaint) : Complaint :=
  { c with path := seg :: c.path }

/-- A field of a record whose fields are collected in a `σ`. -/
structure Field (σ : Type) where
  name : String
  /-- The field has been read. -/
  isSet : σ → Bool
  /-- Reads the field. It is told how many containers may still be opened. -/
  read : Nat → σ → Reader (Except Complaint σ)

/-- A field whose values have a reader of their own. -/
def Field.of (name : String) (get : σ → Option τ) (set : σ → τ → σ) (r : Nat → Reader τ) :
    Field σ where
  name := name
  isSet d := (get d).isSome
  read levels d := do
    let v ← r levels
    return .ok (set d v)

/-- How a record is written. -/
structure Record (σ α : Type) where
  name : String
  /-- The fields, in the order of the list form. -/
  fields : List (Field σ)
  /-- Keys that are no field's name are refused; otherwise their values are skipped. -/
  strict : Bool
  /-- No field has been read. -/
  start : σ
  /-- The record with the fields that have been read, or the first field it lacks. -/
  finish : σ → Except String α

namespace Record

/-- The record, for messages. -/
def shape (r : Record σ α) : RecordShape := ⟨r.name, r.fields.length⟩

/-- What stands behind a key of the record. -/
def entry (r : Record σ α) (levels : Nat) (k : String) (d : σ) :
    Reader (σ ⊕ Except Complaint σ) :=
  match r.fields.find? (·.name == k) with
  | none =>
    if r.strict then
      return .inr (.error ⟨.unknownField k (r.fields.map (·.name)), [.key k]⟩)
    else do
      colon
      skip.within (.key k)
      return .inl d
  | some f =>
    if f.isSet d then return .inr (.error ⟨.duplicateField k, []⟩)
    else do
      colon
      match ← (f.read levels d).within (.key k) with
      | .ok d => return .inl d
      | .error c => return .inr (.error (c.within (.key k)))

/-- The fields in the form of an object. -/
def ofObject (r : Record σ α) (levels : Nat) : Reader (Except Complaint α) := do
  match ← entries (r.entry levels) .ok r.start with
  | .error c => return .error c
  | .ok d =>
    match r.finish d with
    | .ok a => return .ok a
    | .error field => return .error ⟨.missingField field, []⟩

/-- The fields `fs`, behind `n` others, in the form of a list. -/
def listFields (levels : Nat) : List (Field σ) → Nat → σ → Reader (Except Complaint (Nat × σ))
  | [], n, d => return .ok (n, d)
  | f :: fs, n, d => do
    if ← nextValue .list (n == 0) then
      match ← (f.read levels d).within (.index n) with
      | .ok d => listFields levels fs (n + 1) d
      | .error c => return .error (c.within (.index n))
    else return .ok (n, d)

/-- The fields in the form of a list. -/
def ofList (r : Record σ α) (levels : Nat) : Reader (Except Complaint α) := do
  match ← listFields levels r.fields 0 r.start with
  | .error c => return .error c
  | .ok (n, d) =>
    match r.finish d with
    | .ok a => return .ok a
    | .error _ => return .error ⟨.wrongLength n r.shape, []⟩

/-- Closes a record. A complaint takes its place behind what can be closed. -/
def settle (b : Bracket) (outcome : Except Complaint α) : Reader α :=
  match outcome with
  | .ok a => do
    close b
    return a
  | .error c => fun s =>
    .error
      { cause := .mismatch c.mismatch
        path := c.path
        left := Json.byteCount (closeAttempt b s).1 }

/-- Reads the record. -/
def read (r : Record σ α) (levels : Nat) : Reader α := do
  blanks
  let opened (b : Bracket) (fields : Nat → Reader (Except Complaint α)) : Reader α :=
    match levels with
    | 0 => fail .tooDeep
    | levels + 1 => do
      advance
      settle b (← fields levels)
  match ← peek with
  | some '{' => opened .object r.ofObject
  | some '[' => opened .list r.ofList
  | _ => unexpected s!"struct {r.name}"

end Record

end Document

end Nullness
