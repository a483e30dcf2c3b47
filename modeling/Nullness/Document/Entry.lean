import Nullness.Symbol

/-!
# Entries of a document

A document lists symbols as they were found in a program. An entry refers to its
owner by the identifier of the owner's entry, to an annotation type by its qualified
name, and to an enum constant by the name of its class, a dot and its own name.
-/

namespace Nullness

namespace Document

mutual

/-- The value of an argument, as written. -/
inductive ValueEntry
  | scalar (s : Scalar)
  | constant (qualifiedName : String)
  | nested (a : AnnotationEntry)
  | list (vs : List ValueEntry)

/-- A named argument, as written. -/
structure ArgumentEntry where
  name : String
  value : ValueEntry

/-- An annotation, as written. -/
structure AnnotationEntry where
  type : String
  /-- The type could not be found. -/
  isUnresolved : Bool
  arguments : List ArgumentEntry

end

instance : Inhabited ValueEntry := ⟨.list []⟩
instance : Inhabited AnnotationEntry := ⟨⟨"", false, []⟩⟩
instance : Inhabited ArgumentEntry := ⟨⟨"", .list []⟩⟩

/-- A symbol, as written. -/
structure SymbolEntry where
  id : String
  kind : Kind
  name : String
  owner : Option String := none
  isLocal : Bool := false
  isUnknown : Bool := false
  site : Option Site := none
  annotations : List AnnotationEntry := []
deriving Inhabited

end Document

end Nullness
