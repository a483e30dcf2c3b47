import Nullness.Annotation

/-!
# Symbols

A symbol is a package, a class, a method or a variable. Symbols own one another:
a package owns classes, a class owns methods and fields, a method owns parameters
and local variables. The qualified name of a symbol is its own name after that of
its owner.
-/

namespace Nullness

/-- What a symbol is. -/
inductive Kind
  | pkg
  | cls
  | method
  | var
deriving DecidableEq, Repr, Inhabited

/-- The word for a kind, both in documents and in reports. -/
def Kind.word : Kind → String
  | .pkg => "package"
  | .cls => "class"
  | .method => "method"
  | .var => "variable"

/-- All kinds, outermost first. -/
def Kind.all : List Kind := [.pkg, .cls, .method, .var]

/-- The kind that a word stands for. -/
def Kind.ofWord? (w : String) : Option Kind :=
  Kind.all.find? (·.word == w)

theorem Kind.ofWord?_word (k : Kind) : Kind.ofWord? k.word = some k := by
  cases k <;> decide

/-- Where a symbol is declared. -/
structure Site where
  path : String
  line : Nat
deriving DecidableEq, Repr, Inhabited

/-- A symbol with everything attached to it. -/
structure Symbol where
  kind : Kind
  name : String
  qualifiedName : String
  owner : Option SymbolId := none
  /-- Nothing is known about the symbol beyond its name. -/
  isUnknown : Bool := false
  /-- The variable lives inside a method body, so it is no parameter. -/
  isLocal : Bool := false
  /-- The symbol was only referred to, never declared. -/
  isSynthetic : Bool := false
  annotations : List Annotation := []
  site : Option Site := none
deriving Inhabited

/-- What stands at a position that holds no symbol: an unknown class without a name. -/
def Symbol.nowhere : Symbol where
  kind := .cls
  name := ""
  qualifiedName := ""
  isUnknown := true
  isSynthetic := true

end Nullness
