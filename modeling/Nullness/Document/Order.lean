import Nullness.Document.Entry
import Nullness.Exploration

/-!
# The order of declaration

A symbol is declared after its owner. Entries are taken in the order of the document,
each behind those of its owners that have not been taken yet, outermost first. That
fails if an owner is missing or an entry would come to own itself.
-/

namespace Nullness

namespace Document

/-- What can be wrong with the owners of entries. -/
inductive OwnerError
  /-- The owner that an entry names has no entry. -/
  | missing (id owner : String)
  /-- The owners of an entry lead back to it. -/
  | cycle (id : String)
deriving DecidableEq, Repr

/-- The position of the first entry with an identifier. -/
def position? (es : List SymbolEntry) (id : String) : Option Nat :=
  es.findIdx? (·.id == id)

theorem position?_lt {es : List SymbolEntry} {id : String} {i : Nat}
    (h : position? es id = some i) : i < es.length :=
  (List.findIdx?_eq_some_iff_findIdx_eq.1 h).1

/-- The entry at a position and its owners, up to one that is in `taken`, outermost
first; behind those in `below`, which are on the way already. -/
def climb (es : List SymbolEntry) (taken below : List Nat) (i : Nat) (hi : i < es.length) :
    Except OwnerError (List Nat) :=
  if taken.contains i then .ok below
  else if _h : i ∈ below then .error (.cycle es[i].id)
  else
    match es[i].owner with
    | none => .ok (i :: below)
    | some owner =>
      match ho : position? es owner with
      | none => .error (.missing es[i].id owner)
      | some o => climb es taken (i :: below) o (position?_lt ho)
termination_by unseen es.length below
decreasing_by exact unseen_cons_lt hi _h

/-- The order in which the entries at positions `is` are declared, behind those in
`taken`. -/
def orderFrom (es : List SymbolEntry) (taken : List Nat) :
    (is : List Nat) → (∀ i ∈ is, i < es.length) → Except OwnerError (List Nat)
  | [], _ => .ok taken
  | i :: is, h =>
    match climb es taken [] i (h i List.mem_cons_self) with
    | .error e => .error e
    | .ok more => orderFrom es (taken ++ more) is fun j hj => h j (List.mem_cons_of_mem _ hj)

/-- The order in which the entries of a document are declared, as positions. -/
def order (es : List SymbolEntry) : Except OwnerError (List Nat) :=
  orderFrom es [] (List.range es.length) fun _ => List.mem_range.1

end Document

end Nullness
