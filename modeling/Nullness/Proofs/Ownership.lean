import Mathlib.Data.List.Nodup
import Mathlib.Logic.Relation
import Nullness.Document.Order

/-!
# Ownership among entries

Entries can be declared in some order, owners first, when their owners lead to an
entry without one. The module shows that `order` finds such an order or else names a
fault that the entries really have, and that no climb goes on for ever, whatever
entries it is given.

What is `taken` was climbed to the end before, so it is rooted; what is `below` lies on
the way here, so it is owned by the entry in hand, over one step or more. The first
fact carries the success of a climb and the second its failure.
-/

namespace Nullness

namespace Document

open Relation

variable {es : List SymbolEntry}

/-! ## Owners -/

/-- `o` is an entry under the name that `e` has for its owner. -/
def OwnedBy (es : List SymbolEntry) (e o : SymbolEntry) : Prop :=
  o ∈ es ∧ e.owner = some o.id

/-- From owner to owner, the entry leads to one without an owner. -/
inductive Rooted (es : List SymbolEntry) : SymbolEntry → Prop
  | root {e : SymbolEntry} (h : e.owner = none) : Rooted es e
  | owned {e o : SymbolEntry} (h : OwnedBy es e o) (ho : Rooted es o) : Rooted es e

theorem Rooted.exists_owner {e : SymbolEntry} {w : String} (h : Rooted es e)
    (hw : e.owner = some w) : ∃ o ∈ es, o.id = w := by
  cases h with
  | root hn => simp [hn] at hw
  | @owned _ o ho _ => exact ⟨o, ho.1, by simpa [ho.2] using hw⟩

theorem OwnedBy.unique {e o o' : SymbolEntry} (hd : (es.map (·.id)).Nodup)
    (h : OwnedBy es e o) (h' : OwnedBy es e o') : o = o' := by
  have hid : o.id = o'.id := by simpa [h.2] using h'.2
  exact List.inj_on_of_nodup_map hd h.1 h'.1 hid

/-- A rooted entry does not come to own itself. Where identifiers repeat, it could: an
owner might be found at two places, on and off a cycle. -/
theorem Rooted.not_cyclic {e : SymbolEntry} (hd : (es.map (·.id)).Nodup)
    (h : Rooted es e) : ¬ TransGen (OwnedBy es) e e := by
  induction h with
  | root hn =>
    intro hc
    obtain ⟨o, ho, -⟩ := TransGen.head'_iff.1 hc
    simpa [hn] using ho.2
  | @owned e o ho _ ih =>
    intro hc
    obtain ⟨o', ho', hback⟩ := TransGen.head'_iff.1 hc
    obtain rfl := ho.unique hd ho'
    exact ih (TransGen.tail' hback ho)

namespace OwnerError

/-- The entries have the fault that the error names. -/
def Holds (es : List SymbolEntry) : OwnerError → Prop
  | missing id owner =>
    ∃ e ∈ es, e.id = id ∧ e.owner = some owner ∧ ∀ o ∈ es, o.id ≠ owner
  | cycle id => ∃ e ∈ es, e.id = id ∧ TransGen (OwnedBy es) e e

/-- Entries with such a fault are not all rooted. -/
theorem Holds.not_rooted {err : OwnerError} (hd : (es.map (·.id)).Nodup)
    (h : err.Holds es) : ∃ e ∈ es, ¬ Rooted es e := by
  cases err with
  | missing id owner =>
    obtain ⟨e, he, -, hw, hno⟩ := h
    refine ⟨e, he, fun hr => ?_⟩
    obtain ⟨o, ho, hid⟩ := hr.exists_owner hw
    exact hno o ho hid
  | cycle id =>
    obtain ⟨e, he, -, hc⟩ := h
    exact ⟨e, he, fun hr => hr.not_cyclic hd hc⟩

end OwnerError

/-! ## Positions -/

theorem position?_eq_none_iff {w : String} :
    position? es w = none ↔ ∀ e ∈ es, e.id ≠ w := by
  simp [position?]

theorem ownedBy_of_position? {e : SymbolEntry} {w : String} {o : Nat} (ho : o < es.length)
    (hw : e.owner = some w) (h : position? es w = some o) : OwnedBy es e es[o] := by
  obtain ⟨_, hid, -⟩ := List.findIdx?_eq_some_iff_getElem.1 h
  have hid : es[o].id = w := by simpa using hid
  exact ⟨List.getElem_mem ho, by rw [hw, hid]⟩

/-- The entry at a position, if there is one, is rooted. -/
def RootedAt (es : List SymbolEntry) (i : Nat) : Prop :=
  ∀ h : i < es.length, Rooted es es[i]

/-! ## Climbs -/

/-- What a climb to `i` behind `below` gives when it succeeds. -/
structure Climbed (es : List SymbolEntry) (taken below : List Nat) (i : Nat)
    (more : List Nat) : Prop where
  reached : i ∈ taken ∨ i ∈ more
  rooted : RootedAt es i
  kept : below ⊆ more
  new : ∀ j ∈ more, j ∈ below ∨ RootedAt es j

theorem climbed_of_climb {taken below more : List Nat} {i : Nat} {hi : i < es.length}
    (ht : ∀ j ∈ taken, RootedAt es j) (h : climb es taken below i hi = .ok more) :
    Climbed es taken below i more := by
  -- an entry is known to be rooted only once the climb to its owner is done
  fun_induction climb es taken below i hi with
  | case1 below i hi htaken =>
    cases h
    have hmem : i ∈ taken := by simpa using htaken
    exact ⟨.inl hmem, ht i hmem, List.Subset.refl _, fun _ => .inl⟩
  | case2 => cases h
  | case3 below i hi _ _ howner =>
    cases h
    have hroot : RootedAt es i := fun _ => .root howner
    refine ⟨.inr List.mem_cons_self, hroot, List.subset_cons_self i below, fun j hj => ?_⟩
    obtain rfl | hj := List.mem_cons.1 hj
    · exact .inr hroot
    · exact .inl hj
  | case4 => cases h
  | case5 below i hi _ _ w howner o ho ih =>
    obtain ⟨-, hrooted, hkept, hnew⟩ := ih h
    have hroot : RootedAt es i := fun _ =>
      .owned (ownedBy_of_position? (position?_lt ho) howner ho) (hrooted (position?_lt ho))
    have hsub := List.cons_subset.1 hkept
    refine ⟨.inr hsub.1, hroot, hsub.2, fun j hj => ?_⟩
    obtain hj | hj := hnew j hj
    · obtain rfl | hj := List.mem_cons.1 hj
      · exact .inr hroot
      · exact .inl hj
    · exact .inr hj

theorem holds_of_climb {taken below : List Nat} {i : Nat} {hi : i < es.length}
    {err : OwnerError}
    (hb : ∀ j ∈ below, ∀ hj : j < es.length, TransGen (OwnedBy es) es[j] es[i])
    (h : climb es taken below i hi = .error err) : err.Holds es := by
  fun_induction climb es taken below i hi with
  | case1 => cases h
  | case2 below i hi _ hmem =>
    -- met on the way already, so its owners lead back to it
    cases h
    exact ⟨es[i], List.getElem_mem hi, rfl, hb i hmem hi⟩
  | case3 => cases h
  | case4 below i hi _ _ w howner ho =>
    cases h
    exact ⟨es[i], List.getElem_mem hi, rfl, howner, position?_eq_none_iff.1 ho⟩
  | case5 below i hi _ _ w howner o ho ih =>
    have hstep := ownedBy_of_position? (position?_lt ho) howner ho
    refine ih (fun j hj hlt => ?_) h
    obtain rfl | hj := List.mem_cons.1 hj
    · exact .single hstep
    · exact (hb j hj hlt).tail hstep

/-! ## Orders -/

theorem orderFrom_ok {taken is positions : List Nat} {his : ∀ i ∈ is, i < es.length}
    (ht : ∀ j ∈ taken, RootedAt es j) (h : orderFrom es taken is his = .ok positions) :
    taken ⊆ positions ∧ is ⊆ positions ∧ ∀ j ∈ positions, RootedAt es j := by
  induction is generalizing taken with
  | nil =>
    cases h
    exact ⟨List.Subset.refl _, List.nil_subset _, ht⟩
  | cons i is ih =>
    rw [orderFrom] at h
    split at h
    · cases h
    · rename_i more hmore
      have hclimbed := climbed_of_climb ht hmore
      have ht' : ∀ j ∈ taken ++ more, RootedAt es j := by
        intro j hj
        obtain hj | hj := List.mem_append.1 hj
        · exact ht j hj
        · exact (hclimbed.new j hj).resolve_left List.not_mem_nil
      obtain ⟨htaken, his', hrooted⟩ := ih ht' h
      refine ⟨List.Subset.trans (List.subset_append_left _ _) htaken, ?_, hrooted⟩
      exact List.cons_subset.2 ⟨htaken (List.mem_append.2 hclimbed.reached), his'⟩

theorem holds_of_orderFrom {taken is : List Nat} {his : ∀ i ∈ is, i < es.length}
    {err : OwnerError} (h : orderFrom es taken is his = .error err) : err.Holds es := by
  induction is generalizing taken with
  | nil => cases h
  | cons i is ih =>
    rw [orderFrom] at h
    split at h
    · rename_i e he
      cases h
      exact holds_of_climb (by simp) he
    · exact ih h

theorem mem_order {positions : List Nat} (h : order es = .ok positions) {i : Nat}
    (hi : i < es.length) : i ∈ positions :=
  (orderFrom_ok (by simp) h).2.1 (List.mem_range.2 hi)

/-- Every entry is declared. -/
theorem mem_filterMap_of_order {positions : List Nat} (h : order es = .ok positions)
    {e : SymbolEntry} (he : e ∈ es) : e ∈ positions.filterMap (es[·]?) := by
  obtain ⟨i, hi, rfl⟩ := List.getElem_of_mem he
  exact List.mem_filterMap.2 ⟨i, mem_order h hi, List.getElem?_eq_getElem hi⟩

theorem rooted_of_order {positions : List Nat} (h : order es = .ok positions) :
    ∀ e ∈ es, Rooted es e := by
  intro e he
  obtain ⟨i, hi, rfl⟩ := List.getElem_of_mem he
  exact (orderFrom_ok (by simp) h).2.2 i (mem_order h hi) hi

theorem holds_of_order {err : OwnerError} (h : order es = .error err) : err.Holds es :=
  holds_of_orderFrom h

/-! ## No climb goes on for ever -/

/-- `Calls es taken c' c`: the climb `c` goes on as `c'`, which has reached the owner. A
climb is told by the positions below it and the one that it has reached. -/
inductive Calls (es : List SymbolEntry) (taken : List Nat) :
    List Nat × Nat → List Nat × Nat → Prop
  | owner {below : List Nat} {i o : Nat} {w : String} (hi : i < es.length)
      (htaken : i ∉ taken) (hbelow : i ∉ below) (howner : es[i].owner = some w)
      (ho : position? es w = some o) : Calls es taken (i :: below, o) (below, i)

/-- A climb that goes on gives what the other gives. -/
theorem climb_of_calls {taken below below' : List Nat} {i o : Nat} {hi : i < es.length}
    {ho : o < es.length} (h : Calls es taken (below', o) (below, i)) :
    climb es taken below i hi = climb es taken below' o ho := by
  cases h with
  | owner _ htaken hbelow howner hpos =>
    rw [climb.eq_def es taken below i]
    simp only [List.contains_eq_mem, htaken, decide_false, Bool.false_eq_true, ↓reduceIte,
      hbelow, ↓reduceDIte, howner]
    split
    · rename_i hnone
      rw [hpos] at hnone
      cases hnone
    · rename_i hsome
      rw [hpos] at hsome
      cases hsome
      rfl

theorem calls_wellFounded (es : List SymbolEntry) (taken : List Nat) :
    WellFounded (Calls es taken) := by
  have hlt : Subrelation (Calls es taken)
      (InvImage (· < ·) fun c : List Nat × Nat => unseen es.length c.1) := by
    rintro _ _ ⟨hi, _, hbelow, _, _⟩
    exact unseen_cons_lt hi hbelow
  exact hlt.wf (InvImage.wf _ Nat.lt_wfRel.wf)

end Document

end Nullness
