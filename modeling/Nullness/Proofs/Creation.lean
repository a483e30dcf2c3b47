import Nullness.Proofs.Consistency

/-!
# Symbols made on demand

A class or an enum constant that is asked for is found under its qualified name, or else it is
made. What has to be made is little: a class takes a package at most, a constant its class and
that package. All else stays as it was, down to what names lead to.

- `Symbol.OnDemand`: what a symbol looks like that was made for a reference.
- `Registry.Makes`: at most so many symbols were made, and nothing else happened.
- `Registry.Reachable.makes_on_demand`: what references to classes and constants come to, under
  all names.
-/

namespace Nullness

/-- A symbol as it is made for a reference. It is known, and nothing is attached to it. A package
has no owner; classes and variables are marked as never declared, and there are no others. -/
structure Symbol.OnDemand (s : Symbol) : Prop where
  known : s.isUnknown = false
  annotations : s.annotations = []
  site : s.site = none
  kind : s.kind = .pkg ∧ s.owner = none ∨ s.kind = .cls ∨ s.kind = .var
  synthetic : s.kind = .cls ∨ s.kind = .var → s.isSynthetic = true

namespace Registry

variable {r r' r'' : Registry} {m n : Nat}

/-- `r'` is `r` with at most `n` symbols behind the others, made on demand. The others are the
same with all that is attached to them, and both indexes still lead to them. -/
structure Makes (n : Nat) (r r' : Registry) : Prop where
  grown : r.size ≤ r'.size
  atMost : r'.size ≤ r.size + n
  symbol : ∀ i, i < r.size → r'.symbol i = r.symbol i
  made : ∀ i, r.size ≤ i → i < r'.size → (r'.symbol i).OnDemand
  find : ∀ q i, r.find? q = some i → r'.find? q = some i
  missing : ∀ q, r'.unknownNames.find? q = r.unknownNames.find? q

namespace Makes

theorem refl (r : Registry) : Makes 0 r r where
  grown := Nat.le_refl _
  atMost := Nat.le_refl _
  symbol _ _ := rfl
  made _ hi hlt := absurd hlt (Nat.not_lt.mpr hi)
  find _ _ := id
  missing _ := rfl

theorem mono (h : Makes m r r') (hmn : m ≤ n) : Makes n r r' :=
  { h with atMost := Nat.le_trans h.atMost (Nat.add_le_add_left hmn _) }

theorem trans (h : Makes m r r') (h' : Makes n r' r'') : Makes (m + n) r r'' where
  grown := Nat.le_trans h.grown h'.grown
  atMost := by
    have := h.atMost
    have := h'.atMost
    omega
  symbol i hi := (h'.symbol i (Nat.lt_of_lt_of_le hi h.grown)).trans (h.symbol i hi)
  made i hi hlt := by
    rcases Nat.lt_or_ge i r'.size with hmid | hmid
    · -- made first, and left alone since
      rw [h'.symbol i hmid]
      exact h.made i hi hmid
    · exact h'.made i hmid hlt
  find q i hq := h'.find q i (h.find q i hq)
  missing q := (h'.missing q).trans (h.missing q)

theorem push {e : Entry} (he : (r.entrySymbol e).OnDemand) : Makes 1 r (r.push e).1 where
  grown := by
    rw [size_push]
    exact Nat.le_succ _
  atMost := Nat.le_of_eq (size_push r e)
  symbol i hi := by rw [symbol_push, if_neg (Nat.ne_of_lt hi)]
  made i hi hlt := by
    rw [size_push] at hlt
    have hlast : i = r.size := Nat.le_antisymm (Nat.le_of_lt_succ hlt) hi
    rw [symbol_push, if_pos hlast]
    exact he
  find q i hq := by rw [find?_push, hq, Option.some_or]
  missing q := by
    have hknown : e.isUnknown = false := he.known
    have hnot : (r.entrySymbol e).isMissingAs q = false := by
      rw [Symbol.isMissingAs, show (r.entrySymbol e).isUnknown = false from hknown]
      rfl
    rw [missing_push, hnot, if_neg Bool.false_ne_true, Option.or_none]

theorem push_synthetic {e : Entry} (hk : e.kind = .cls ∨ e.kind = .var) (hu : e.isUnknown = false)
    (hs : e.isSynthetic = true) : Makes 1 r (r.push e).1 :=
  push
    { known := hu, annotations := rfl, site := rfl, kind := Or.inr hk, synthetic := fun _ => hs }

end Makes

theorem makes_addPackage (r : Registry) (q : String) : Makes 1 r (r.addPackage q).1 := by
  rcases addPackage_cases r q with ⟨id, -, heq⟩ | ⟨-, heq⟩
  · rw [heq]
    exact (Makes.refl r).mono (Nat.zero_le 1)
  · rw [heq]
    exact .push
      { known := rfl, annotations := rfl, site := rfl, kind := Or.inl ⟨rfl, rfl⟩
        synthetic := fun hk => by rcases hk with hk | hk <;> cases hk }

/-- What the class is added to: the registry, or the registry with one more package. -/
theorem Opened.makes {q : String} (h : r.Opened q r') : Makes 1 r r' := by
  rcases h with rfl | ⟨outer, name, -, -, rfl⟩
  · exact (Makes.refl r').mono (Nat.zero_le 1)
  · exact makes_addPackage r outer

theorem Exact.makes_ensureClass (h : r.Exact) (q : String) : Makes 2 r (r.ensureClass q).1 := by
  rcases h.ensureClass_cases q with ⟨id, -, heq⟩ | ⟨-, r', e, hopened, -, hk, hu, hs, -, -, heq⟩
  · rw [heq]
    exact (Makes.refl r).mono (Nat.zero_le 2)
  · rw [heq]
    exact hopened.makes.trans (.push_synthetic (Or.inl hk) hu hs)

theorem Exact.makes_enumConstant (h : r.Exact) (c k : String) :
    Makes 3 r (r.enumConstant c k).1 := by
  have hclass := h.makes_ensureClass c
  rcases enumConstant_cases r c k with ⟨id, -, heq⟩ | ⟨-, heq⟩
  · rw [heq]
    exact hclass.mono (Nat.le_succ 2)
  · rw [heq]
    exact hclass.trans (.push_synthetic (Or.inr rfl) rfl rfl)

/-- **On demand.** A reference to a class leads to a known class of exactly that name, for which
two symbols are made at most; one to a constant to a known variable named after its class, for
which there are three at most. Nothing else changes. -/
theorem Reachable.makes_on_demand (h : r.Reachable) (q c k : String) :
    ((r.ensureClass q).1.Knows .cls q (r.ensureClass q).2 ∧ Makes 2 r (r.ensureClass q).1) ∧
      ((r.enumConstant c k).1.Knows .var (c ++ "." ++ k) (r.enumConstant c k).2 ∧
        Makes 3 r (r.enumConstant c k).1) :=
  have hexact := h.exact
  ⟨⟨hexact.knows_ensureClass q, hexact.makes_ensureClass q⟩,
    hexact.knows_enumConstant_append c k, hexact.makes_enumConstant c k⟩

/-- A class `p.C.X` is made behind the field of that name. A constant without a name, of the class
whose name is only a dot, takes a package without a name and that class. -/
theorem makes_on_demand_homonyms :
    homonyms.Reachable ∧
      ((homonyms.ensureClass "p.C.X").1.Knows .cls "p.C.X" 7 ∧
        Makes 2 homonyms (homonyms.ensureClass "p.C.X").1) ∧
      ((homonyms.enumConstant "." "").1.Knows .var ".." 9 ∧
        Makes 3 homonyms (homonyms.enumConstant "." "").1) ∧
      (homonyms.enumConstant "." "").1.size = homonyms.size + 3 := by
  have h := reachable_homonyms.makes_on_demand "p.C.X" "." ""
  have hclass : (homonyms.ensureClass "p.C.X").2 = 7 := by decide
  have hconstant : (homonyms.enumConstant "." "").2 = 9 := by decide
  rw [hclass, hconstant] at h
  exact ⟨reachable_homonyms, h.1, h.2, by decide⟩

end Registry

end Nullness
