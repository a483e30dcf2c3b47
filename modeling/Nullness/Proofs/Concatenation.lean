import Nullness.Proofs.Expansion

/-!
# Expansion part by part

The expansion of a list can be put together from those of its parts. A walk over the second
part starts with many types met, but with each of them it has also met whatever the type leads
to. So the walk keeps what it would keep by itself, less what the first part has brought.

An expansion is its own expansion: what is attached to the type of an annotation stands right
behind it, as far as it was new there, and is passed over when its turn comes again.

- `Graph.expand_append`: the expansion of one list behind another.
- `Graph.expand_expand`: expanding again changes nothing, not even within a longer list.
-/

namespace Nullness

namespace Graph

variable {g : Graph} {seen : List SymbolId} {as bs xs ys : List Annotation}

/-- Behind a list, a walk keeps what it would keep by itself, less what the list leads to. -/
theorem fresh_behind (g : Graph) (xs ys : List Annotation) :
    g.fresh (g.seenAfter [] xs) ys =
      (g.expand ys).filter (·.type ∉ (g.expand xs).map (·.type)) := by
  have hseen : ∀ i, i ∈ g.seenAfter [] xs ↔ i ∈ (g.expand xs).map (·.type) ∨ i ∈ [] := by
    intro i
    rw [mem_seenAfter, List.mem_map, or_comm]
    rfl
  exact fresh_of_closed hseen (g.closed_types_expand xs)

/-- **Concatenation.** The expansion of two lists is that of the first, and then that of the
second without the annotations of types that are in the first. -/
theorem expand_append (g : Graph) (xs ys : List Annotation) :
    g.expand (xs ++ ys) =
      g.expand xs ++ (g.expand ys).filter (·.type ∉ (g.expand xs).map (·.type)) := by
  rw [expand_eq_fresh, fresh_append, fresh_behind]
  rfl

/-- The expansion of two lists depends on nothing but the expansions of both. -/
theorem expand_append_congr (hxs : g.expand xs = g.expand as) (hys : g.expand ys = g.expand bs) :
    g.expand (xs ++ ys) = g.expand (as ++ bs) := by
  calc g.expand (xs ++ ys)
      = g.expand xs ++ g.fresh (g.seenAfter [] xs) ys := fresh_append
    _ = g.expand as ++ g.fresh (g.seenAfter [] as) bs := by
        rw [fresh_behind, fresh_behind, hxs, hys]
    _ = g.expand (as ++ bs) := fresh_append.symm

/-- What a walk keeps is kept again, all of it and in the same order. -/
theorem fresh_fresh : g.fresh seen (g.fresh seen as) = g.fresh seen as := by
  induction seen, as using g.fresh_induct with
  | nil seen => simp
  | skip seen a rest h ih =>
      rw [fresh_cons_of_mem h]
      exact ih
  | enter seen a rest h ihInner ihOuter =>
      rw [fresh_cons_of_not_mem h, fresh_cons_of_not_mem h, fresh_append]
      -- behind `a` comes again what is attached to its type, of which now everything is met
      have hmet : ∀ b ∈ g.fresh (a.type :: seen) (g.annotations a.type),
          b.type ∈ g.seenAfter (a.type :: seen) (g.annotations a.type) :=
        fun b hb => mem_seenAfter.mpr (Or.inr ⟨b, hb, rfl⟩)
      obtain ⟨hnone, hstay⟩ := fresh_of_all_mem (g := g) hmet
      rw [hnone, hstay, ihOuter, List.nil_append]

/-- **Idempotence.** Expanding an expansion gives the same list again. Within a longer list, the
expansion of a part may stand for the part. -/
theorem expand_expand (g : Graph) (as : List Annotation) :
    g.expand (g.expand as) = g.expand as ∧
      ∀ before after, g.expand (before ++ g.expand as ++ after) =
        g.expand (before ++ as ++ after) := by
  have hagain : g.expand (g.expand as) = g.expand as := fresh_fresh
  refine ⟨hagain, fun before after => ?_⟩
  exact expand_append_congr (expand_append_congr rfl hagain) rfl

end Graph

end Nullness
