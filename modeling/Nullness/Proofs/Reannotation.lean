import Nullness.Proofs.Expansion
import Nullness.Proofs.Resolution

/-!
# Other annotations at one symbol

`Graph.withAnnotations` attaches a different list of annotations to one symbol. All else
stays: every annotation reads as before, so the rulings on a list are the same, and a
resolution can only change through the lists that it rules on.
-/

namespace Nullness

namespace Graph

variable {g : Graph} {x : SymbolId} {as : List Annotation}

/-- The graph with the annotations `as` attached to `x`, in place of those it has. -/
def withAnnotations (g : Graph) (x : SymbolId) (as : List Annotation) : Graph :=
  { g with symbols := g.symbols.modify x fun s => { s with annotations := as } }

theorem symbol_withAnnotations (g : Graph) (x : SymbolId) (as : List Annotation) (i : SymbolId) :
    (g.withAnnotations x as).symbol i =
      if x = i ∧ i < g.size then { g.symbol i with annotations := as } else g.symbol i := by
  show (g.symbols.modify x _)[i]?.getD .nowhere = _
  rw [Array.getElem?_modify]
  by_cases hx : x = i
  · by_cases hi : i < g.symbols.size
    · rw [if_pos hx, if_pos ⟨hx, hi⟩]
      simp [symbol, hi]
    · rw [if_pos hx, if_neg fun h => hi h.2]
      simp [symbol, hi]
  · rw [if_neg hx, if_neg fun h => hx h.1]
    rfl

theorem bare_withAnnotations (g : Graph) (x : SymbolId) (as : List Annotation) (i : SymbolId) :
    ((g.withAnnotations x as).symbol i).bare = (g.symbol i).bare := by
  rw [symbol_withAnnotations]
  split <;> rfl

theorem annotations_withAnnotations (g : Graph) (x : SymbolId) (as : List Annotation)
    (i : SymbolId) :
    (g.withAnnotations x as).annotations i =
      if x = i ∧ i < g.size then as else g.annotations i := by
  unfold annotations
  rw [symbol_withAnnotations]
  split <;> rfl

theorem alike_withAnnotations (g : Graph) (x : SymbolId) (as : List Annotation) (a : Annotation) :
    g.Alike (g.withAnnotations x as) a :=
  alike_of_bare (g.bare_withAnnotations x as) a

theorem owners_withAnnotations (g : Graph) (x : SymbolId) (as : List Annotation) (s : SymbolId) :
    (g.withAnnotations x as).owners s = g.owners s :=
  owners_congr fun i _ => g.bare_withAnnotations x as i

theorem ruling_withAnnotations (g : Graph) (x : SymbolId) (as bs : List Annotation) :
    (g.withAnnotations x as).ruling bs = g.ruling bs :=
  ruling_congr fun b _ => g.alike_withAnnotations x as b

theorem defaultRuling_withAnnotations (g : Graph) (x : SymbolId) (as : List Annotation)
    (t : Target) (bs : List Annotation) :
    (g.withAnnotations x as).defaultRuling t bs = g.defaultRuling t bs :=
  defaultRuling_congr (fun b _ => g.alike_withAnnotations x as b) t

end Graph

end Nullness
