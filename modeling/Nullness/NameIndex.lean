/-!
# First-come name index

An index from names to positions in which the first entry for a name stays.
-/

namespace Nullness

/-- Pairs of a name and a position, no name twice. -/
structure NameIndex where
  entries : List (String × Nat) := []
deriving Inhabited

namespace NameIndex

/-- The position entered for a name. -/
def find? (ix : NameIndex) (name : String) : Option Nat :=
  ix.entries.lookup name

/-- Enters a position for a name that has none; a name that has one keeps it. -/
def insertIfNew (ix : NameIndex) (name : String) (i : Nat) : NameIndex :=
  match ix.find? name with
  | some _ => ix
  | none => ⟨(name, i) :: ix.entries⟩

@[simp] theorem find?_empty (name : String) : find? {} name = none := rfl

theorem find?_insertIfNew (ix : NameIndex) (name other : String) (i : Nat) :
    (ix.insertIfNew name i).find? other =
      if other = name then some ((ix.find? name).getD i) else ix.find? other := by
  unfold insertIfNew
  by_cases ho : other = name
  · subst ho
    cases h : ix.find? other with
    | some j => simp [h]
    | none => simp [find?]
  · cases h : ix.find? name with
    | some j => simp [ho]
    | none =>
      have : (other == name) = false := by simp [ho]
      simp [find?, List.lookup_cons, this, ho]

end NameIndex

end Nullness
