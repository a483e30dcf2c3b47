/-!
# What is left to explore

Walks over a finite row of positions keep a list of what they have seen. The
number of positions not seen yet goes down with each new one, which is why such
walks end.
-/

namespace Nullness

/-- The number of positions below `n` that are not in `seen`. -/
def unseen (n : Nat) (seen : List Nat) : Nat :=
  (List.range n).countP (· ∉ seen)

theorem unseen_mono {n : Nat} {seen seen' : List Nat} (h : seen ⊆ seen') :
    unseen n seen' ≤ unseen n seen := by
  apply List.countP_mono_left
  intro x _ hx
  simp only [decide_eq_true_eq] at hx ⊢
  exact fun h' => hx (h h')

theorem unseen_cons_lt {n i : Nat} {seen : List Nat} (hi : i < n) (h : i ∉ seen) :
    unseen n (i :: seen) < unseen n seen := by
  have hmem : i ∈ List.range n := List.mem_range.2 hi
  obtain ⟨as, bs, hab⟩ := List.append_of_mem hmem
  have mono (l : List Nat) : l.countP (· ∉ i :: seen) ≤ l.countP (· ∉ seen) := by
    apply List.countP_mono_left
    intro x _ hx
    simp only [decide_eq_true_eq, List.mem_cons, not_or] at hx ⊢
    exact hx.2
  have has := mono as
  have hbs := mono bs
  have hnew : (bs.countP (· ∉ seen)) + 1 = (i :: bs).countP (· ∉ seen) := by
    simp [h]
  have hold : (i :: bs).countP (· ∉ i :: seen) = bs.countP (· ∉ i :: seen) := by
    simp
  unfold unseen
  rw [hab, List.countP_append, List.countP_append, hold, ← hnew]
  omega

end Nullness
