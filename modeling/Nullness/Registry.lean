import Nullness.Graph

/-!
# Growing a graph

A registry is a graph under construction. Beside the index of known names it keeps
one of the names that were declared without being known, so that a reference to
such a name finds the declaration instead of inventing a class.

Symbols are added at the end and never removed. Three operations look before they
add: `addPackage`, `ensureClass` and `enumConstant`.
-/

namespace Nullness

/-- A graph under construction. -/
structure Registry extends Graph where
  /-- The first symbol declared unknown under each qualified name. -/
  unknownNames : NameIndex := {}
deriving Inhabited

/-- What a new symbol is, apart from its place in the graph. -/
structure Registry.Entry where
  kind : Kind
  name : String
  owner : Option SymbolId := none
  isUnknown : Bool := false
  isLocal : Bool := false
  isSynthetic : Bool := false

namespace Registry

/-- The qualified name of something called `name` that `owner` owns. -/
def qualify (r : Registry) (owner : Option SymbolId) (name : String) : String :=
  match owner with
  | none => name
  | some o => (r.symbol o).qualifiedName ++ "." ++ name

/-- Adds a symbol at the end. A known symbol enters the index of names, an unknown
one that is declared the index of unknown names. -/
def push (r : Registry) (e : Entry) : Registry × SymbolId :=
  let q := r.qualify e.owner e.name
  let s : Symbol :=
    { kind := e.kind, name := e.name, qualifiedName := q, owner := e.owner,
      isUnknown := e.isUnknown, isLocal := e.isLocal, isSynthetic := e.isSynthetic }
  let id := r.size
  ({ symbols := r.symbols.push s
     names := if e.isUnknown then r.names else r.names.insertIfNew q id
     unknownNames :=
       if e.isUnknown && !e.isSynthetic then r.unknownNames.insertIfNew q id
       else r.unknownNames }, id)

/-- The symbol found under a name, if it is known and of the given kind. -/
def findKind? (r : Registry) (qualifiedName : String) (kind : Kind) : Option SymbolId :=
  match r.find? qualifiedName with
  | none => none
  | some id =>
    let s := r.symbol id
    if s.kind = kind ∧ s.isUnknown = false then some id else none

/-- The package found under a name, else a new one. -/
def addPackage (r : Registry) (name : String) : Registry × SymbolId :=
  match r.findKind? name .pkg with
  | some id => (r, id)
  | none => r.push { kind := .pkg, name }

/-- Adds a symbol as declared. A known package without an owner may be declared
again and stays one symbol. -/
def addSymbol (r : Registry) (kind : Kind) (name : String) (owner : Option SymbolId)
    (isUnknown isLocal : Bool) : Registry × SymbolId :=
  if kind = .pkg ∧ owner = none ∧ isUnknown = false then r.addPackage name
  else r.push { kind, name, owner, isUnknown, isLocal }

/-- Adds a class about which nothing is known, and which is not declared either. -/
def addUnknown (r : Registry) (name : String) : Registry × SymbolId :=
  r.push { kind := .cls, name, isUnknown := true, isSynthetic := true }

/-- The part before the last dot and the part after it. -/
def splitLastDot (s : String) : Option (String × String) :=
  let cs := s.toList.reverse
  let last := cs.takeWhile (· ≠ '.')
  match cs.dropWhile (· ≠ '.') with
  | [] => none
  | _ :: front => some (String.ofList front.reverse, String.ofList last.reverse)

/-- The class with this qualified name. A missing one is added to the class, else
to the package, that its name names before the last dot. -/
def ensureClass (r : Registry) (qualifiedName : String) : Registry × SymbolId :=
  match r.findKind? qualifiedName .cls with
  | some id => (r, id)
  | none =>
    match splitLastDot qualifiedName with
    | none => r.push { kind := .cls, name := qualifiedName, isSynthetic := true }
    | some (outer, name) =>
      let (r, owner) :=
        match r.findKind? outer .cls with
        | some id => (r, id)
        | none => r.addPackage outer
      r.push { kind := .cls, name, owner := some owner, isSynthetic := true }

/-- The variable `constant` of the class `className`; both are added when missing. -/
def enumConstant (r : Registry) (className constant : String) : Registry × SymbolId :=
  let (r, owner) := r.ensureClass className
  match r.findKind? (r.qualify (some owner) constant) .var with
  | some id => (r, id)
  | none => r.push { kind := .var, name := constant, owner := some owner, isSynthetic := true }

/-- The class declared under a name: a known one, else one declared unknown. -/
def findDeclaredClass? (r : Registry) (qualifiedName : String) : Option SymbolId :=
  match r.findKind? qualifiedName .cls with
  | some id => some id
  | none =>
    match r.unknownNames.find? qualifiedName with
    | none => none
    | some id => if (r.symbol id).kind = .cls then some id else none

/-- Attaches an annotation to a symbol, after those it has. -/
def annotate (r : Registry) (id : SymbolId) (a : Annotation) : Registry :=
  { r with symbols := r.symbols.modify id fun s => { s with annotations := s.annotations ++ [a] } }

/-- Says where a symbol is declared, in place of what was said before. -/
def setSite (r : Registry) (id : SymbolId) (site : Site) : Registry :=
  { r with symbols := r.symbols.modify id fun s => { s with site := some site } }

/-! ## Edits -/

/-- One operation on a registry, as data. -/
inductive Edit
  | package (name : String)
  | symbol (kind : Kind) (name : String) (owner : Option SymbolId) (isUnknown isLocal : Bool)
  | member (kind : Kind) (name : String) (owner : Option SymbolId) (isLocal : Bool)
  | unknown (name : String)
  | ensureClass (qualifiedName : String)
  | enumConstant (className constant : String)
  | annotate (id : SymbolId) (a : Annotation)
  | setSite (id : SymbolId) (site : Site)

/-- Carries out an edit, and gives the symbol that it adds or finds. -/
def apply (r : Registry) : Edit → Registry × Option SymbolId
  | .package name => (r.addPackage name).map id some
  | .symbol kind name owner isUnknown isLocal =>
    (r.addSymbol kind name owner isUnknown isLocal).map id some
  | .member kind name owner isLocal => (r.push { kind, name, owner, isLocal }).map id some
  | .unknown name => (r.addUnknown name).map id some
  | .ensureClass q => (r.ensureClass q).map id some
  | .enumConstant c k => (r.enumConstant c k).map id some
  | .annotate i a => (r.annotate i a, none)
  | .setSite i site => (r.setSite i site, none)

end Registry

end Nullness
