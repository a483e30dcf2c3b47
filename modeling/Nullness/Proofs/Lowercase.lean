import Mathlib
import Nullness.Proofs.Addresses
import Nullness.Proofs.Tables

/-!
# No capital letters are left

Folding turns the capital letters of ASCII into small ones, and none of its tables brings one
back: neither the images of other characters nor the halves and wholes of composites. So a folded
name stays as it is when it is folded as ASCII.

- `Text.low_composed`: composition makes no capital letter.
- `Url.Name.low_fold?`: a folded name has none.
-/

namespace Nullness

namespace Text

variable {c d : Char} {s t : List Char} {n : Nat}

/-- A text without capital letters of ASCII. -/
def Low (s : List Char) : Prop := ∀ c ∈ s, c.isUpper = false

theorem isUpper_iff : c.isUpper = true ↔ 65 ≤ c.toNat ∧ c.toNat ≤ 90 := by
  simp [Char.isUpper, UInt32.le_iff_toNat_le, ← Char.toNat_val]

theorem not_isUpper_of_isLowCode (h : isLowCode c.toNat = true) : c.isUpper = false := by
  refine Bool.eq_false_iff.mpr fun hupper => ?_
  have := isUpper_iff.mp hupper
  simp only [isLowCode, Bool.or_eq_true, decide_eq_true_eq] at h
  omega

theorem not_isUpper_ofNat (h : isLowCode n = true) : (Char.ofNat n).isUpper = false := by
  refine not_isUpper_of_isLowCode ?_
  rw [Char.toNat_ofNat]
  split
  · exact h
  · rfl

theorem not_isUpper_of_le (h : 128 ≤ n) : (Char.ofNat n).isUpper = false := by
  refine not_isUpper_ofNat ?_
  simp only [isLowCode, Bool.or_eq_true, decide_eq_true_eq]
  omega

theorem low_singleton (h : c.isUpper = false) : Low [c] :=
  fun _ hd => (List.mem_singleton.mp hd).symm ▸ h

theorem Low.append (hs : Low s) (ht : Low t) : Low (s ++ t) :=
  fun c hc => (List.mem_append.mp hc).elim (hs c) (ht c)

theorem Low.cons (h : c.isUpper = false) (hs : Low s) : Low (c :: s) :=
  (low_singleton h).append hs

theorem Low.map_toLower (h : Low s) : s.map Char.toLower = s := by
  have hall : ∀ c ∈ s, c.toLower = id c :=
    fun c hc => Char.toLower_eq_of_not_isUpper (by simp [h c hc])
  rw [List.map_congr_left hall, List.map_id]

/-! ## Composition -/

theorem isLow_of_find? {q : Composite → Bool} {k : Composite} (h : composites.find? q = some k) :
    k.base.isUpper = false ∧ k.mark.isUpper = false ∧ k.whole.isUpper = false := by
  have hfit := isFit_of_composites k (List.mem_of_find?_eq_some h)
  simp only [Composite.isFit, Bool.and_eq_true, Bool.not_eq_true'] at hfit
  exact ⟨hfit.1.1.1.1, hfit.1.1.1.2, hfit.1.1.2⟩

theorem not_isUpper_whole? {base mark : Char} (h : whole? base mark = some c) :
    c.isUpper = false := by
  rw [whole?, Option.orElse_eq_orElse, Option.orElse_eq_or, Option.or_eq_some_iff] at h
  rcases h with h | ⟨-, h⟩
  · rw [syllable?] at h
    split at h
    · rw [← Option.some.inj h]
      exact not_isUpper_of_le (by omega)
    · split at h
      · rw [← Option.some.inj h]
        exact not_isUpper_of_le (by omega)
      · cases h
  · obtain ⟨k, hk, rfl⟩ := Option.map_eq_some_iff.mp h
    exact (isLow_of_find? hk).2.2

theorem not_isUpper_halves? {base mark : Char} (h : halves? c = some (base, mark)) :
    base.isUpper = false ∧ mark.isUpper = false := by
  rw [halves?] at h
  split at h
  · dsimp only at h
    split at h
    · obtain ⟨rfl, rfl⟩ := Prod.mk.inj (Option.some.inj h)
      exact ⟨not_isUpper_of_le (by omega), not_isUpper_of_le (by omega)⟩
    · obtain ⟨rfl, rfl⟩ := Prod.mk.inj (Option.some.inj h)
      exact ⟨not_isUpper_of_le (by omega), not_isUpper_of_le (by omega)⟩
  · obtain ⟨k, hk, heq⟩ := Option.map_eq_some_iff.mp h
    cases heq
    exact ⟨(isLow_of_find? hk).1, (isLow_of_find? hk).2.1⟩

theorem low_takenApart (n : Nat) (h : c.isUpper = false) : Low (takenApart n c) := by
  induction n generalizing c with
  | zero => exact low_singleton h
  | succ n ih =>
      rw [takenApart]
      split
      · exact low_singleton h
      · next hhalves =>
        obtain ⟨hbase, hmark⟩ := not_isUpper_halves? hhalves
        exact (ih hbase).append (low_singleton hmark)

theorem low_putMark (h : c.isUpper = false) (hs : Low s) : Low (putMark c s) := by
  induction s with
  | nil => exact low_singleton h
  | cons d s ih =>
      have hd : d.isUpper = false := hs d List.mem_cons_self
      have hrest : Low s := fun e he => hs e (List.mem_cons_of_mem d he)
      rw [putMark]
      split
      · exact (ih hrest).cons hd
      · exact hs.cons h

theorem low_ordered (h : Low s) : Low (ordered s) := by
  induction s with
  | nil => exact h
  | cons c s ih =>
      exact low_putMark (h c List.mem_cons_self) (ih fun d hd => h d (List.mem_cons_of_mem c hd))

theorem low_takeMarks {marks : List Char} (hc : c.isUpper = false) (hmarks : Low marks)
    (hs : Low s) : Low (takeMarks c marks s) := by
  induction s generalizing c marks with
  | nil => exact hmarks.cons hc
  | cons d s ih =>
      have hd : d.isUpper = false := hs d List.mem_cons_self
      have hrest : Low s := fun e he => hs e (List.mem_cons_of_mem d he)
      rw [takeMarks]
      split
      · next w hwhole =>
        split at hwhole
        · cases hwhole
        · exact ih (not_isUpper_whole? hwhole) hmarks hrest
      · split
        · exact (hmarks.cons hc).append (ih hd (by simp [Low]) hrest)
        · exact ih hc (hmarks.append (low_singleton hd)) hrest

/-- Composition makes no capital letter. -/
theorem low_composed (h : Low s) : Low (composed s) := by
  have hall : Low (ordered (s.flatMap (takenApart 3))) := by
    refine low_ordered fun c hc => ?_
    obtain ⟨d, hd, hc⟩ := List.mem_flatMap.mp hc
    exact low_takenApart 3 (h d hd) c hc
  rw [composed]
  split
  · simp [Low]
  · next c s heq =>
    rw [heq] at hall
    exact low_takeMarks (hall c List.mem_cons_self) (by simp [Low])
      fun d hd => hall d (List.mem_cons_of_mem c hd)

end Text

/-! ## Folding -/

namespace Url.Name

open Text

variable {c : Char} {cs s t : List Char}

theorem isLowCode_of_image? {f : Folding} {n : Nat} {image : List Nat} (hf : f.isFit = true)
    (hn : 128 ≤ n) (h : f.image? n = some image) : ∀ k ∈ image, isLowCode k = true := by
  intro k hk
  cases f with
  | range first last start =>
      rw [Folding.image?] at h
      split at h
      · cases h
        obtain rfl := List.mem_singleton.mp hk
        simp only [Folding.isFit, isLowCode, Bool.and_eq_true, Bool.or_eq_true,
          decide_eq_true_eq] at hf ⊢
        omega
      · cases h
  | pairs first last =>
      rw [Folding.image?] at h
      split at h
      · cases h
        obtain rfl := List.mem_singleton.mp hk
        simp only [isLowCode, Bool.or_eq_true, decide_eq_true_eq]
        omega
      · cases h
  | texts first images =>
      rw [Folding.image?] at h
      split at h
      · have himages := (Bool.and_eq_true_iff.mp hf).1
        have hall := List.all_eq_true.mp himages image (List.mem_of_getElem? h)
        exact List.all_eq_true.mp hall k hk
      · cases h

theorem low_foldChar? (h : foldChar? c = some cs) : Low cs := by
  rw [foldChar?] at h
  split at h
  · cases h
    exact low_singleton (Char.isUpper_toLower_eq_false c)
  · next hascii =>
    have hc : 128 ≤ c.toNat := Nat.le_of_not_lt hascii
    split at h
    · next image hfound =>
      cases h
      obtain ⟨f, hf, himage⟩ := List.exists_of_findSome?_eq_some hfound
      intro d hd
      obtain ⟨k, hk, rfl⟩ := List.mem_map.mp hd
      exact not_isUpper_ofNat (isLowCode_of_image? (isFit_of_foldings f hf) hc himage k hk)
    · split at h
      · cases h
        simp [Low]
      · split at h
        · cases h
        · cases h
          exact low_singleton (Char.ofNat_toNat c ▸ not_isUpper_of_le hc)

/-- A folded name has no capital letters. -/
theorem low_fold? (h : fold? s = some t) : Low t := by
  rw [fold?] at h
  split at h
  · cases h
    intro c hc
    obtain ⟨d, -, rfl⟩ := List.mem_map.mp hc
    exact Char.isUpper_toLower_eq_false d
  · obtain ⟨parts, hparts, rfl⟩ := Option.map_eq_some_iff.mp h
    refine low_composed fun c hc => ?_
    obtain ⟨part, hpart, hc⟩ := List.mem_flatten.mp hc
    obtain ⟨d, -, hd⟩ := exists_of_mem_mapM hparts part hpart
    exact low_foldChar? hd c hc

end Url.Name

end Nullness
