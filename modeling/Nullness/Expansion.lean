import Nullness.Exploration
import Nullness.Graph

/-!
# Expansion of annotations

Annotation types carry annotations themselves. Expanding a list of annotations puts
after each one the expansion of what is attached to its type. A type is expanded
where it is met first and skipped afterwards, so types that lead back to themselves
do no harm.
-/

namespace Nullness

/-- The types met so far, and the annotations kept for them in the order of meeting. -/
structure Trail where
  seen : List SymbolId := []
  kept : Array Annotation := #[]

namespace Graph

theorem expansion_step (g : Graph) {seen : List SymbolId} {i : SymbolId} (h : i ∉ seen) (n : Nat) :
    Prod.Lex (· < ·) (· < ·) (unseen g.size (i :: seen), (g.annotations i).length)
      (unseen g.size seen, n + 1) := by
  by_cases hi : i < g.size
  · exact .left _ _ (unseen_cons_lt hi h)
  · have hle : unseen g.size (i :: seen) ≤ unseen g.size seen :=
      unseen_mono (List.subset_cons_self i seen)
    have hz : (g.annotations i).length = 0 := by simp [g.annotations_of_le (Nat.le_of_not_lt hi)]
    rcases Nat.lt_or_eq_of_le hle with hlt | heq
    · exact .left _ _ hlt
    · rw [heq, hz]
      exact .right _ (Nat.succ_pos n)

/-- Follows the annotations of a list, each before what is attached to its type, and
adds those of new types to the trail. The trail never forgets a type. -/
def follow (g : Graph) (t : Trail) : List Annotation → { t' : Trail // t.seen ⊆ t'.seen }
  | [] => ⟨t, fun _ h => h⟩
  | a :: rest =>
    if _h : a.type ∈ t.seen then g.follow t rest
    else
      let inner := g.follow ⟨a.type :: t.seen, t.kept.push a⟩ (g.annotations a.type)
      let outer := g.follow inner.1 rest
      ⟨outer.1, fun _ hx => outer.2 (inner.2 (List.mem_cons_of_mem _ hx))⟩
termination_by as => (unseen g.size t.seen, as.length)
decreasing_by
  · exact .right _ (Nat.lt_succ_self _)
  · exact g.expansion_step _h rest.length
  · have hle : unseen g.size inner.1.seen ≤ unseen g.size t.seen :=
      unseen_mono fun _ hx => inner.2 (List.mem_cons_of_mem _ hx)
    rcases Nat.lt_or_eq_of_le hle with hlt | heq
    · exact .left _ _ hlt
    · rw [heq]
      exact .right _ (Nat.lt_succ_self _)

/-- The annotations of a list and everything reached through their types, one for
each type, in the order of meeting. -/
def expand (g : Graph) (as : List Annotation) : List Annotation :=
  (g.follow {} as).1.kept.toList

end Graph

end Nullness
