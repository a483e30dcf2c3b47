/-!
# Annotations

An annotation applies an annotation type to a symbol and carries named
arguments. An argument is a constant, a reference to a symbol (an enum constant
as a rule), another annotation, or a list of these.

Types and references are positions in a graph, so an annotation means nothing
without the graph it belongs to.
-/

namespace Nullness

/-- Position of a symbol in its graph, counted from zero in the order of creation. A program
keeps positions in words of 32 bits, which count from zero again behind `2 ^ 32` symbols. Here
they have no bound: graphs are taken to be smaller than that. -/
abbrev SymbolId := Nat

/-- A constant. A float is its IEEE 754 bit pattern, which tells all NaNs apart. -/
inductive Scalar
  | bool (b : Bool)
  | int (n : Int)
  | float (bits : UInt64)
  | str (s : String)
deriving DecidableEq, Repr, Inhabited

mutual

/-- The value of an argument. -/
inductive Value
  | scalar (s : Scalar)
  | symbol (id : SymbolId)
  | nested (a : Annotation)
  | list (vs : List Value)

/-- A named argument. -/
structure Argument where
  name : String
  value : Value

/-- An annotation type applied to something, with its arguments in written order. -/
structure Annotation where
  type : SymbolId
  arguments : List Argument

end

instance : Inhabited Value := ⟨.list []⟩
instance : Inhabited Annotation := ⟨⟨0, []⟩⟩

/-- The value of the first argument with the given name. -/
def Annotation.argument? (a : Annotation) (name : String) : Option Value :=
  (a.arguments.find? (·.name == name)).map (·.value)

/-! ## Symbols mentioned by a value -/

mutual

/-- Some symbol that `v` refers to, directly or through lists, satisfies `p`.
Constants and nested annotations refer to nothing. -/
def Value.mentions (p : SymbolId → Bool) : Value → Bool
  | .symbol id => p id
  | .list vs => Value.anyMentions p vs
  | .scalar _ | .nested _ => false

/-- Some value of the list mentions a symbol that satisfies `p`. -/
def Value.anyMentions (p : SymbolId → Bool) : List Value → Bool
  | [] => false
  | v :: vs => v.mentions p || Value.anyMentions p vs

end

/-! ## Sameness

Two values are the same when they have one shape and equal parts. Floats are
compared as numbers: a NaN is not even the same as itself, and the two zeros are
the same. -/

/-- The bit pattern stands for a NaN. -/
def isNaNBits (bits : UInt64) : Bool :=
  bits &&& 0x7fffffffffffffff > 0x7ff0000000000000

/-- Equality of the numbers that two bit patterns stand for. -/
def sameFloat (a b : UInt64) : Bool :=
  !isNaNBits a && !isNaNBits b && (a == b || (a ||| b) &&& 0x7fffffffffffffff == 0)

/-- Sameness of constants. Constants of different kinds are never the same. -/
def Scalar.same : Scalar → Scalar → Bool
  | .bool a, .bool b => a == b
  | .int a, .int b => a == b
  | .float a, .float b => sameFloat a b
  | .str a, .str b => a == b
  | _, _ => false

mutual

/-- Sameness of values. -/
def Value.same : Value → Value → Bool
  | .scalar a, .scalar b => a.same b
  | .symbol a, .symbol b => a == b
  | .nested a, .nested b => a.same b
  | .list as, .list bs => Value.sameList as bs
  | _, _ => false
termination_by structural v => v

/-- Sameness of lists of values, element by element. -/
def Value.sameList : List Value → List Value → Bool
  | [], [] => true
  | a :: as, b :: bs => a.same b && Value.sameList as bs
  | _, _ => false
termination_by structural vs => vs

/-- Sameness of annotations: one type, and the same arguments in the same order. -/
def Annotation.same : Annotation → Annotation → Bool
  | ⟨t, as⟩, ⟨u, bs⟩ => t == u && Argument.sameList as bs
termination_by structural a => a

/-- Sameness of arguments, name by name and value by value. -/
def Argument.sameList : List Argument → List Argument → Bool
  | [], [] => true
  | ⟨n, v⟩ :: as, ⟨m, w⟩ :: bs => n == m && v.same w && Argument.sameList as bs
  | _, _ => false
termination_by structural as => as

end

end Nullness
