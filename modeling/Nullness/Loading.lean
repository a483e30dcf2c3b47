import Nullness.Document.Order
import Nullness.Document.Read
import Nullness.Registry

/-!
# From documents to graphs

The entries of a document are declared as symbols, owners first. Then annotations are
attached in the order of the document. A type that an annotation names is the class
declared under that name, else a new one; enum constants are added when missing.
-/

namespace Nullness

open Document

/-- Why a document gives no graph. -/
inductive LoadError
  /-- The text is no document. -/
  | unreadable (d : Json.Diagnosis)
  /-- Two entries have one identifier. -/
  | duplicateId (id : String)
  /-- An owner is missing, or owns itself. -/
  | misowned (e : OwnerError)
  /-- An enum constant without a dot. `arguments` are the names of the arguments
  around it, outermost first. -/
  | unqualified (symbol : String) (arguments : List String) (constant : String)

namespace LoadError

/-- The messages of an error, from the most general to the cause. -/
def messages : LoadError → List String
  | unreadable d => ["invalid symbol graph", d.message]
  | duplicateId id => [s!"duplicate symbol id `{id}`"]
  | misowned (.missing id owner) => [s!"symbol `{id}` references unknown owner `{owner}`"]
  | misowned (.cycle id) => [s!"ownership cycle through symbol `{id}`"]
  | unqualified symbol arguments constant =>
    [s!"annotation on symbol `{symbol}`"] ++ arguments.map (fun name => s!"argument `{name}`") ++
      [s!"enum constant `{constant}` must be qualified with its type"]

end LoadError

/-- An enum constant without a dot, with the names of the arguments around it. -/
structure Unqualified where
  arguments : List String := []
  constant : String

/-- The constant, inside one more argument. -/
def Unqualified.within (name : String) (u : Unqualified) : Unqualified :=
  { u with arguments := name :: u.arguments }

namespace Registry

/-! ## Annotations -/

/-- The symbol of an annotation's type. -/
def typeOf (r : Registry) (name : String) (isUnresolved : Bool) : Registry × SymbolId :=
  if isUnresolved then r.addUnknown name
  else
    match r.findDeclaredClass? name with
    | some id => (r, id)
    | none => r.ensureClass name

mutual

/-- The value that an entry stands for. -/
def value (r : Registry) : ValueEntry → Except Unqualified (Registry × Value)
  | .scalar s => .ok (r, .scalar s)
  | .constant c =>
    match splitLastDot c with
    | none => .error { constant := c }
    | some (className, name) =>
      let (r, id) := r.enumConstant className name
      .ok (r, .symbol id)
  | .nested a =>
    match r.annotation a with
    | .error u => .error u
    | .ok (r, a) => .ok (r, .nested a)
  | .list vs =>
    match r.values vs with
    | .error u => .error u
    | .ok (r, vs) => .ok (r, .list vs)
termination_by structural v => v

/-- The values that entries stand for. -/
def values (r : Registry) : List ValueEntry → Except Unqualified (Registry × List Value)
  | [] => .ok (r, [])
  | v :: vs =>
    match r.value v with
    | .error u => .error u
    | .ok (r, v) =>
      match r.values vs with
      | .error u => .error u
      | .ok (r, vs) => .ok (r, v :: vs)
termination_by structural vs => vs

/-- The annotation that an entry stands for. -/
def annotation (r : Registry) : AnnotationEntry → Except Unqualified (Registry × Annotation)
  | ⟨name, isUnresolved, as⟩ =>
    let (r, type) := r.typeOf name isUnresolved
    match r.arguments as with
    | .error u => .error u
    | .ok (r, arguments) => .ok (r, ⟨type, arguments⟩)
termination_by structural a => a

/-- The arguments that entries stand for. -/
def arguments (r : Registry) : List ArgumentEntry → Except Unqualified (Registry × List Argument)
  | [] => .ok (r, [])
  | ⟨name, v⟩ :: as =>
    match r.value v with
    | .error u => .error (u.within name)
    | .ok (r, v) =>
      match r.arguments as with
      | .error u => .error u
      | .ok (r, as) => .ok (r, ⟨name, v⟩ :: as)
termination_by structural as => as

end

/-- Attaches the annotations that entries stand for to a symbol. -/
def annotateAll (r : Registry) (id : SymbolId) : List AnnotationEntry → Except Unqualified Registry
  | [] => .ok r
  | a :: as =>
    match r.annotation a with
    | .error u => .error u
    | .ok (r, a) => (r.annotate id a).annotateAll id as

/-! ## Declarations -/

/-- Symbols of entries, by the identifiers of the entries. -/
abbrev Declared := List (String × SymbolId)

/-- Declares the symbol of an entry whose owner is declared. -/
def declare (r : Registry) (done : Declared) (e : SymbolEntry) : Registry × Declared :=
  let owner := e.owner.bind fun o => done.lookup o
  let (r, id) := r.addSymbol e.kind e.name owner e.isUnknown e.isLocal
  (r, (e.id, id) :: done)

/-- Declares the symbols of entries in a row. -/
def declareAll (r : Registry) (done : Declared) : List SymbolEntry → Registry × Declared
  | [] => (r, done)
  | e :: es =>
    let (r, done) := r.declare done e
    r.declareAll done es

/-- Attaches to declared symbols what their entries say beyond the declaration. -/
def describeAll (r : Registry) (done : Declared) : List SymbolEntry → Except LoadError Registry
  | [] => .ok r
  | e :: es =>
    match done.lookup e.id with
    | none => r.describeAll done es
    | some id =>
      let r := match e.site with
        | none => r
        | some site => r.setSite id site
      match r.annotateAll id e.annotations with
      | .error u => .error (.unqualified e.id u.arguments u.constant)
      | .ok r => r.describeAll done es

end Registry

/-- The identifier of the first entry that repeats that of an earlier one. -/
def repeatedId? (seen : List String) : List SymbolEntry → Option String
  | [] => none
  | e :: es => if seen.contains e.id then some e.id else repeatedId? (e.id :: seen) es

/-- The graph of the entries of a document. -/
def Graph.ofEntries (es : List SymbolEntry) : Except LoadError Graph :=
  match repeatedId? [] es with
  | some id => .error (.duplicateId id)
  | none =>
    match order es with
    | .error e => .error (.misowned e)
    | .ok positions =>
      let (r, done) := Registry.declareAll {} [] (positions.filterMap (es[·]?))
      (r.describeAll done es).map (·.toGraph)

/-- The graph of a document. -/
def Graph.ofText (text : String) : Except LoadError Graph :=
  match Document.read text with
  | .error d => .error (.unreadable d)
  | .ok es => Graph.ofEntries es

end Nullness
