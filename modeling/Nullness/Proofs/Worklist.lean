import Nullness.Proofs.Expansion

/-!
# Expansion with a stack

A walk over annotation types, told without recursion: what is still to be looked at is a
stack of annotations. The front one is dropped if its type was met before. Otherwise it is
kept, and what is attached to its type goes on top of the rest.

The recursive walk comes back from what is attached to a type before it goes on with the list
in hand, and the stack holds both at once. They agree because what lies further down in a
stack has no influence before its turn comes.

- `Graph.workOff`: the loop over the stack.
- `Graph.workOff_append`: the upper part of a stack is worked off as the walk would follow it.
- `Graph.expand_eq_workOff`: the expansion of a list is what the loop keeps.
-/

namespace Nullness

namespace Graph

variable {g : Graph} {t : Trail} {a : Annotation} {rest : List Annotation}

theorem stack_step (g : Graph) {seen : List SymbolId} {i : SymbolId} (h : i ∉ seen)
    (rest : List Annotation) :
    Prod.Lex (· < ·) (· < ·) (unseen g.size (i :: seen), (g.annotations i ++ rest).length)
      (unseen g.size seen, rest.length + 1) := by
  -- a new type that is no symbol of the graph has nothing attached, so the stack gets lower
  rcases Prod.lex_def.mp (g.expansion_step h 0) with hlt | ⟨heq, hlength⟩
  · exact .left _ _ hlt
  · have hsame : unseen g.size (i :: seen) = unseen g.size seen := heq
    have hnone : (g.annotations i).length = 0 := Nat.lt_one_iff.mp hlength
    rw [hsame, List.length_append, hnone, Nat.zero_add]
    exact .right _ (Nat.lt_succ_self _)

/-- Works off a stack of annotations. The trail holds the types met so far and the annotations
kept for them. -/
def workOff (g : Graph) (t : Trail) : List Annotation → Trail
  | [] => t
  | a :: rest =>
    if _h : a.type ∈ t.seen then g.workOff t rest
    else g.workOff ⟨a.type :: t.seen, t.kept.push a⟩ (g.annotations a.type ++ rest)
termination_by stack => (unseen g.size t.seen, stack.length)
decreasing_by
  · exact .right _ (Nat.lt_succ_self _)
  · exact g.stack_step _h rest

@[simp] theorem workOff_nil (g : Graph) (t : Trail) : g.workOff t [] = t := by
  rw [workOff]

theorem workOff_cons_of_mem (h : a.type ∈ t.seen) :
    g.workOff t (a :: rest) = g.workOff t rest := by
  rw [workOff, dif_pos h]

theorem workOff_cons_of_not_mem (h : a.type ∉ t.seen) :
    g.workOff t (a :: rest) =
      g.workOff ⟨a.type :: t.seen, t.kept.push a⟩ (g.annotations a.type ++ rest) := by
  rw [workOff, dif_neg h]

/-- The upper part of a stack is worked off first, as the walk would follow it. The walk goes on
with a list where the loop goes on with what is below: so what is below stays arbitrary in the
induction. -/
theorem workOff_append (g : Graph) (t : Trail) (upper lower : List Annotation) :
    g.workOff t (upper ++ lower) = g.workOff (g.follow t upper).1 lower := by
  induction t, upper using Graph.follow.induct g generalizing lower with
  | case1 t => rw [follow, List.nil_append]
  | case2 t a rest h ih =>
      rw [List.cons_append, workOff_cons_of_mem h, follow, dif_pos h]
      exact ih lower
  | case3 t a rest h inner ihInner ihOuter =>
      rw [List.cons_append, workOff_cons_of_not_mem h, follow, dif_neg h]
      calc g.workOff ⟨a.type :: t.seen, t.kept.push a⟩ (g.annotations a.type ++ (rest ++ lower))
          = g.workOff inner.1 (rest ++ lower) := ihInner (rest ++ lower)
        _ = g.workOff (g.follow inner.1 rest).1 lower := ihOuter lower

/-- From any trail, the walk and the loop end with the same trail. -/
theorem follow_eq_workOff (g : Graph) (t : Trail) (as : List Annotation) :
    (g.follow t as).1 = g.workOff t as := by
  have h := g.workOff_append t as []
  rw [List.append_nil, workOff_nil] at h
  exact h.symm

/-- **Worklist.** The expansion of a list is what the loop keeps, in this order, when it starts
with the list as its stack and no type met. -/
theorem expand_eq_workOff (g : Graph) (as : List Annotation) :
    g.expand as = (g.workOff {} as).kept.toList := by
  rw [expand, follow_eq_workOff]

end Graph

end Nullness
