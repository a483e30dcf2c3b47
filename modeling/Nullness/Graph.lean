import Nullness.Symbol
import Nullness.NameIndex

/-!
# Symbol graphs

A graph is a row of symbols, in order of creation, with an index of the names of
its known symbols. Positions outside the row hold the nameless unknown symbol, so
every lookup has an answer.
-/

namespace Nullness

/-- Symbols in order of creation, with the first known symbol of each name. -/
structure Graph where
  symbols : Array Symbol := #[]
  names : NameIndex := {}
deriving Inhabited

namespace Graph

/-- The number of symbols. -/
def size (g : Graph) : Nat := g.symbols.size

/-- The symbol at a position. -/
def symbol (g : Graph) (id : SymbolId) : Symbol :=
  g.symbols[id]?.getD .nowhere

/-- The first known symbol that was given this qualified name. -/
def find? (g : Graph) (qualifiedName : String) : Option SymbolId :=
  g.names.find? qualifiedName

/-- The annotations attached to the symbol at a position. -/
def annotations (g : Graph) (id : SymbolId) : List Annotation :=
  (g.symbol id).annotations

/-- The qualified name of an annotation's type. -/
def typeName (g : Graph) (a : Annotation) : String :=
  (g.symbol a.type).qualifiedName

/-- Nothing is known about the annotation's type. -/
def isUnknownType (g : Graph) (a : Annotation) : Bool :=
  (g.symbol a.type).isUnknown

/-- The first annotation of a symbol whose type has the given qualified name. -/
def annotationNamed? (g : Graph) (id : SymbolId) (typeName : String) : Option Annotation :=
  (g.annotations id).find? (g.typeName · == typeName)

theorem symbol_of_le (g : Graph) {id : SymbolId} (h : g.size ≤ id) : g.symbol id = .nowhere := by
  simp [symbol, Array.getElem?_eq_none h]

theorem annotations_of_le (g : Graph) {id : SymbolId} (h : g.size ≤ id) :
    g.annotations id = [] := by
  simp [annotations, g.symbol_of_le h, Symbol.nowhere]

/-! ## Owners -/

/-- The owners of a symbol, nearest first, up to and with the first package; none
for a package itself. An owner stands before what it owns, and one that does not
is no owner. -/
def owners (g : Graph) (id : SymbolId) : List SymbolId :=
  if (g.symbol id).kind = .pkg then []
  else
    match (g.symbol id).owner with
    | none => []
    | some o => if o < id then o :: g.owners o else []
termination_by id

end Graph

end Nullness
