import Nullness.Document.Entry
import Nullness.Json.Value

/-!
# Forms of argument values

Which JSON values stand for an argument value, and for which one. Booleans, numbers
and strings stand for themselves. A list holds argument values. An object stands for
an enum constant if it has exactly one key `enum`, with a string, else for an
annotation if it has exactly one key `annotation`, with the entry of an annotation.
Nothing else is an argument value.
-/

namespace Nullness

namespace Document

/-- The least integer that an argument holds. -/
def leastInt : Int := -9223372036854775808

/-- The greatest integer that an argument holds. -/
def greatestInt : Int := 9223372036854775807

/-- The constant that a number stands for. An integer too great for an argument is
rounded to a double. -/
def Scalar.ofNumber : Json.Number → Scalar
  | .int n =>
    if leastInt ≤ n ∧ n ≤ greatestInt then .int n else .float (Float.ofInt n).toBits
  | .float bits => .float bits

/-- The string that a value is. -/
def string? : Json → Option String
  | .str s => some s
  | _ => none

/-- The boolean that a value is. -/
def bool? : Json → Option Bool
  | .bool b => some b
  | _ => none

/-- What is known of a key while the entries of an object are gone through. -/
inductive Occurrence (α : Type)
  | absent
  | once (a : α)
  | repeated

/-- One more occurrence of a key. -/
def Occurrence.add {α : Type} (a : α) : Occurrence α → Occurrence α
  | absent => once a
  | _ => repeated

/-- The value of a key that occurs exactly once. -/
def Occurrence.single? {α : Type} : Occurrence (Option α) → Option α
  | once a => a
  | _ => none

/-- The two keys that decide what an object stands for. -/
structure ObjectForm where
  constant : Occurrence (Option String) := .absent
  nested : Occurrence (Option AnnotationEntry) := .absent

/-- What an object stands for. -/
def ObjectForm.value? (f : ObjectForm) : Option ValueEntry :=
  match f.constant.single? with
  | some c => some (.constant c)
  | none => f.nested.single?.map .nested

/-- The fields of an annotation's entry, as far as they are known. -/
structure AnnotationDraft where
  type : Option String := none
  isUnresolved : Option Bool := none
  arguments : Option (List ArgumentEntry) := none

/-- The entry with these fields. A type is needed. -/
def AnnotationDraft.complete? (d : AnnotationDraft) : Option AnnotationEntry :=
  d.type.map fun type => ⟨type, d.isUnresolved.getD false, d.arguments.getD []⟩

/-- The fields of an argument's entry, as far as they are known. -/
structure ArgumentDraft where
  name : Option String := none
  value : Option ValueEntry := none

/-- The entry with these fields. Both are needed. -/
def ArgumentDraft.complete? (d : ArgumentDraft) : Option ArgumentEntry :=
  match d.name, d.value with
  | some name, some value => some ⟨name, value⟩
  | _, _ => none

mutual

/-- The argument value that a JSON value stands for. -/
def ValueEntry.ofJson? : Json → Option ValueEntry
  | .null => none
  | .bool b => some (.scalar (.bool b))
  | .num n => some (.scalar (Scalar.ofNumber n))
  | .str s => some (.scalar (.str s))
  | .arr es => (ValueEntry.ofElements? es).map .list
  | .obj es => (ObjectForm.ofEntries {} es).value?
termination_by structural j => j

/-- The argument values that the elements of a list stand for. -/
def ValueEntry.ofElements? : List Json → Option (List ValueEntry)
  | [] => some []
  | e :: es =>
    match ValueEntry.ofJson? e, ValueEntry.ofElements? es with
    | some v, some vs => some (v :: vs)
    | _, _ => none
termination_by structural es => es

/-- Goes through the entries of an object in the place of a value. -/
def ObjectForm.ofEntries (f : ObjectForm) : List (String × Json) → ObjectForm
  | [] => f
  | (k, v) :: es =>
    if k = "enum" then ObjectForm.ofEntries { f with constant := f.constant.add (string? v) } es
    else if k = "annotation" then
      ObjectForm.ofEntries { f with nested := f.nested.add (AnnotationEntry.ofJson? v) } es
    else ObjectForm.ofEntries f es
termination_by structural es => es

/-- The annotation that a JSON value writes, as an object or as the list of the
values of its fields. -/
def AnnotationEntry.ofJson? : Json → Option AnnotationEntry
  | .obj es => (AnnotationDraft.ofEntries? {} es).bind (·.complete?)
  | .arr [t] => (string? t).map fun type => ⟨type, false, []⟩
  | .arr [t, u] =>
    match string? t, bool? u with
    | some type, some isUnresolved => some ⟨type, isUnresolved, []⟩
    | _, _ => none
  | .arr [t, u, a] =>
    match string? t, bool? u, ArgumentEntry.ofList? a with
    | some type, some isUnresolved, some arguments => some ⟨type, isUnresolved, arguments⟩
    | _, _, _ => none
  | _ => none
termination_by structural j => j

/-- Fills in the fields of an annotation's entry. No field comes twice, and no other
key comes at all. -/
def AnnotationDraft.ofEntries? (d : AnnotationDraft) :
    List (String × Json) → Option AnnotationDraft
  | [] => some d
  | (k, v) :: es =>
    if k = "type" ∧ d.type.isNone then
      match string? v with
      | some type => AnnotationDraft.ofEntries? { d with type } es
      | none => none
    else if k = "unresolved" ∧ d.isUnresolved.isNone then
      match bool? v with
      | some isUnresolved => AnnotationDraft.ofEntries? { d with isUnresolved } es
      | none => none
    else if k = "arguments" ∧ d.arguments.isNone then
      match ArgumentEntry.ofList? v with
      | some arguments => AnnotationDraft.ofEntries? { d with arguments } es
      | none => none
    else none
termination_by structural es => es

/-- The arguments that a JSON value lists. -/
def ArgumentEntry.ofList? : Json → Option (List ArgumentEntry)
  | .arr es => ArgumentEntry.ofElements? es
  | _ => none
termination_by structural j => j

/-- The arguments that the elements of a list write. -/
def ArgumentEntry.ofElements? : List Json → Option (List ArgumentEntry)
  | [] => some []
  | e :: es =>
    match ArgumentEntry.ofJson? e, ArgumentEntry.ofElements? es with
    | some a, some rest => some (a :: rest)
    | _, _ => none
termination_by structural es => es

/-- The argument that a JSON value writes, as an object or as the list of its name
and its value. -/
def ArgumentEntry.ofJson? : Json → Option ArgumentEntry
  | .obj es => (ArgumentDraft.ofEntries? {} es).bind (·.complete?)
  | .arr [n, v] =>
    match string? n, ValueEntry.ofJson? v with
    | some name, some value => some ⟨name, value⟩
    | _, _ => none
  | _ => none
termination_by structural j => j

/-- Fills in the fields of an argument's entry, each once. -/
def ArgumentDraft.ofEntries? (d : ArgumentDraft) : List (String × Json) → Option ArgumentDraft
  | [] => some d
  | (k, v) :: es =>
    if k = "name" ∧ d.name.isNone then
      match string? v with
      | some name => ArgumentDraft.ofEntries? { d with name } es
      | none => none
    else if k = "value" ∧ d.value.isNone then
      match ValueEntry.ofJson? v with
      | some value => ArgumentDraft.ofEntries? { d with value } es
      | none => none
    else none
termination_by structural es => es

end

end Document

end Nullness
