import Nullness.Resolve

/-!
# Remembered verdicts

A session answers queries on a graph that no longer changes, and remembers each
verdict in a slot: every symbol has one for each target. A slot keeps what was
stored first.
-/

namespace Nullness

/-- The number of targets, and so of the slots of a symbol. -/
abbrev Target.count : Nat := 4

/-- The slot of a target among those of a symbol. -/
def Target.slot : Target → Fin Target.count
  | .field => 0
  | .parameter => 1
  | .result => 2
  | .unspecified => 3

theorem Target.slot_injective {t u : Target} (h : t.slot = u.slot) : t = u := by
  cases t <;> cases u <;> first | rfl | exact absurd h (by decide)

/-- Verdicts by symbol and slot. -/
structure Memo where
  slots : List ((SymbolId × Fin Target.count) × Verdict) := []

namespace Memo

/-- The verdict in a slot, if it is filled. -/
def find? (m : Memo) (id : SymbolId) (t : Target) : Option Verdict :=
  m.slots.lookup (id, t.slot)

/-- Fills an empty slot; a filled one keeps its verdict. Also gives what the slot
holds afterwards. -/
def store (m : Memo) (id : SymbolId) (t : Target) (v : Verdict) : Memo × Verdict :=
  match m.find? id t with
  | some old => (m, old)
  | none => (⟨((id, t.slot), v) :: m.slots⟩, v)

@[simp] theorem find?_empty (id : SymbolId) (t : Target) : find? {} id t = none := rfl

theorem store_snd (m : Memo) (id : SymbolId) (t : Target) (v : Verdict) :
    (m.store id t v).2 = (m.find? id t).getD v := by
  unfold store
  cases m.find? id t <;> rfl

theorem find?_store (m : Memo) (id : SymbolId) (t : Target) (v : Verdict) (id' : SymbolId)
    (t' : Target) :
    (m.store id t v).1.find? id' t' =
      if id' = id ∧ t' = t then some ((m.find? id t).getD v) else m.find? id' t' := by
  unfold store
  by_cases hslot : id' = id ∧ t' = t
  · obtain ⟨rfl, rfl⟩ := hslot
    cases h : m.find? id' t' with
    | some old => simp [h]
    | none => simp [find?]
  · cases h : m.find? id t with
    | some old => simp [hslot]
    | none =>
      have hkey : ((id', t'.slot) == (id, t.slot)) = false := by
        rw [beq_eq_false_iff_ne]
        intro heq
        obtain ⟨hid, ht⟩ := Prod.mk.inj heq
        exact hslot ⟨hid, Target.slot_injective ht⟩
      simp [find?, List.lookup_cons, hkey, hslot]

/-- What is given of a slot that is stored to is what it holds then. -/
theorem find?_store_self (m : Memo) (id : SymbolId) (t : Target) (v : Verdict) :
    (m.store id t v).1.find? id t = some (m.store id t v).2 := by
  rw [find?_store, if_pos ⟨rfl, rfl⟩, store_snd]

/-- A filled slot keeps what was stored first. -/
theorem find?_store_of_some {m : Memo} {id : SymbolId} {t : Target} {v : Verdict}
    (h : m.find? id t = some v) (id' : SymbolId) (t' : Target) (v' : Verdict) :
    (m.store id' t' v').1.find? id t = some v := by
  rw [find?_store]
  split
  · rename_i hslot
    rw [← hslot.1, ← hslot.2, h]
    rfl
  · exact h

end Memo

/-- A finished graph with what was found out about it. -/
structure Session where
  graph : Graph
  memo : Memo := {}

namespace Session

/-- The nullability of a symbol as a target, computed if it is not remembered. -/
def resolve (s : Session) (id : SymbolId) (t : Target) : Session × Verdict :=
  match s.memo.find? id t with
  | some v => (s, v)
  | none =>
    let (memo, v) := s.memo.store id t (s.graph.resolve id t)
    ({ s with memo }, v)

/-- The nullability of a symbol as the target that it suggests. -/
def nullability (s : Session) (id : SymbolId) : Session × Verdict :=
  match s.graph.target? id with
  | some t => s.resolve id t
  | none => (s, .undecided)

/-- The nullability of a symbol as the target asked about, or else as the one that it
suggests. -/
def answer (s : Session) (id : SymbolId) : Option Target → Session × Verdict
  | some t => s.resolve id t
  | none => s.nullability id

end Session

end Nullness
