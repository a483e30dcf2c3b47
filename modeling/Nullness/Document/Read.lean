import Nullness.Document.Form
import Nullness.Document.Record

/-!
# Reading documents

The records of a document, from the inside out. A document is read up to its closing
bracket; what stands behind is not looked at.
-/

namespace Nullness

namespace Document

open Json (Reader Diagnosis)
open Json.Reader

/-! ## Sites -/

/-- The fields of a site. -/
structure SiteDraft where
  path : Option String := none
  line : Option Nat := none

/-- A site. It may have further keys, which mean nothing. -/
def siteRecord : Record SiteDraft Site where
  name := "DeclarationSite"
  fields :=
    [ .of "path" (·.path) (fun d v => { d with path := some v }) fun _ => string,
      .of "line" (·.line) (fun d v => { d with line := some v }) fun _ => word32 ]
  strict := false
  start := {}
  finish d :=
    match d.path, d.line with
    | none, _ => .error "path"
    | _, none => .error "line"
    | some path, some line => .ok { path, line }

/-! ## Arguments and annotations -/

/-- The value of an argument: any JSON value first, which then has to have a form. -/
def valueField : Field ArgumentDraft where
  name := "value"
  isSet d := d.value.isSome
  read levels d := do
    match ValueEntry.ofJson? (← tree levels) with
    | some value => return .ok { d with value }
    | none => return .error ⟨.noForm, []⟩

/-- An argument. -/
def argumentRecord : Record ArgumentDraft ArgumentEntry where
  name := "ArgumentRecord"
  fields := [.of "name" (·.name) (fun d v => { d with name := some v }) fun _ => string, valueField]
  strict := true
  start := {}
  finish d :=
    match d.name, d.value with
    | none, _ => .error "name"
    | _, none => .error "value"
    | some name, some value => .ok { name, value }

/-- An annotation. -/
def annotationRecord : Record AnnotationDraft AnnotationEntry where
  name := "AnnotationRecord"
  fields :=
    [ .of "type" (·.type) (fun d v => { d with type := some v }) fun _ => string,
      .of "unresolved" (·.isUnresolved) (fun d v => { d with isUnresolved := some v })
        fun _ => boolean,
      .of "arguments" (·.arguments) (fun d v => { d with arguments := some v })
        (list argumentRecord.read) ]
  strict := true
  start := {}
  finish d :=
    match d.complete? with
    | none => .error "type"
    | some a => .ok a

/-! ## Symbols -/

/-- The fields of a symbol. -/
structure SymbolDraft where
  id : Option String := none
  kind : Option Kind := none
  name : Option String := none
  owner : Option (Option String) := none
  isLocal : Option Bool := none
  isUnknown : Option Bool := none
  site : Option (Option Site) := none
  annotations : Option (List AnnotationEntry) := none

/-- The word for a kind. -/
def kind : Nat → Reader Kind :=
  oneOf (Kind.all.map Kind.word) Kind.ofWord?

/-- A symbol. -/
def symbolRecord : Record SymbolDraft SymbolEntry where
  name := "SymbolRecord"
  fields :=
    [ .of "id" (·.id) (fun d v => { d with id := some v }) fun _ => string,
      .of "kind" (·.kind) (fun d v => { d with kind := some v }) kind,
      .of "name" (·.name) (fun d v => { d with name := some v }) fun _ => string,
      .of "owner" (·.owner) (fun d v => { d with owner := some v }) fun _ => optional string,
      .of "local" (·.isLocal) (fun d v => { d with isLocal := some v }) fun _ => boolean,
      .of "unknown" (·.isUnknown) (fun d v => { d with isUnknown := some v }) fun _ => boolean,
      .of "declaration" (·.site) (fun d v => { d with site := some v })
        fun levels => optional (siteRecord.read levels),
      .of "annotations" (·.annotations) (fun d v => { d with annotations := some v })
        (list annotationRecord.read) ]
  strict := true
  start := {}
  finish d :=
    match d.id, d.kind, d.name with
    | none, _, _ => .error "id"
    | _, none, _ => .error "kind"
    | _, _, none => .error "name"
    | some id, some kind, some name =>
      .ok
        { id, kind, name
          owner := d.owner.join
          isLocal := d.isLocal.getD false
          isUnknown := d.isUnknown.getD false
          site := d.site.join
          annotations := d.annotations.getD [] }

/-! ## Documents -/

/-- The symbols of a document, once they are read. -/
structure Draft where
  symbols : Option (List SymbolEntry) := none

/-- A whole document. -/
def record : Record Draft (List SymbolEntry) where
  name := "GraphFile"
  fields :=
    [.of "symbols" (·.symbols) (fun d v => { d with symbols := some v }) (list symbolRecord.read)]
  strict := true
  start := {}
  finish d :=
    match d.symbols with
    | none => .error "symbols"
    | some es => .ok es

/-- The number of containers that may stand one within the other. -/
def depthLimit : Nat := 127

/-- The entries of a document. -/
def read (text : String) : Except Diagnosis (List SymbolEntry) :=
  match record.read depthLimit text.toList with
  | .ok t => .ok t.value
  | .error f => .error (f.locate text.toList)

end Document

end Nullness
