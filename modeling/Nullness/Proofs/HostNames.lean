import Nullness.Proofs.Lowercase

/-!
# Names of hosts in ASCII

The form of a host name in ASCII is in lower case, and each of its labels stands for itself or
for what its code says. Such a name is its own form in ASCII, with one exception: a label may have
grown a code that is longer than one that is found may be. Then it is no name any more.

- `Url.Punycode.mem_encode`: the characters of a code.
- `Url.Name.isName_of_ascii?`: what the forms in ASCII are like.
- `Url.Name.ascii?_of_isName`: they are their own forms, if their codes are not too long.
-/

namespace Nullness

namespace Url

/-! ## Codes -/

namespace Punycode

variable {c : Char} {st : State} {label : List Char}

/-- There are only digits of base 36. -/
def OfDigits (code : List Char) : Prop := ∀ c ∈ code, ∃ n < 36, c = digit n

theorem ofDigits_digits (k bias q : Nat) : OfDigits (digits k bias q) := by
  -- a threshold is between 1 and 26, so neither the last digit nor one before it gets to 36
  fun_induction digits k bias q with
  | case1 k q t hlt =>
      have hbounds := threshold_bounds k bias
      exact fun c hc => ⟨q, by omega, List.mem_singleton.mp hc⟩
  | case2 k q t hge ih =>
      have hbounds := threshold_bounds k bias
      have hmod : (q - t) % (36 - t) < 36 - t := Nat.mod_lt _ (by omega)
      intro c hc
      rcases List.mem_cons.mp hc with rfl | hc
      · exact ⟨_, by omega, rfl⟩
      · exact ih c hc

theorem ofDigits_pass (n : Nat) (c : Char) (h : OfDigits st.code) :
    OfDigits (pass n st c).code := by
  rw [pass]
  split
  · exact h
  · split
    · intro d hd
      rcases List.mem_append.mp hd with hd | hd
      · exact h d hd
      · exact ofDigits_digits _ _ _ d hd
    · exact h

theorem ofDigits_foldl_pass (n : Nat) (label : List Char) (h : OfDigits st.code) :
    OfDigits (label.foldl (pass n) st).code := by
  induction label generalizing st with
  | nil => exact h
  | cons c label ih => exact ih (ofDigits_pass n c h)

theorem ofDigits_insertAll (label : List Char) (last : Nat) (ns : List Nat)
    (h : OfDigits st.code) : OfDigits (insertAll label last st ns).code := by
  induction ns generalizing last st with
  | nil => exact h
  | cons n ns ih => exact ih (n + 1) (ofDigits_foldl_pass n label h)

/-- A code is made of the ASCII characters of the label, a hyphen and digits. -/
theorem mem_encode (h : c ∈ encode label) :
    (c ∈ label ∧ c.toNat < 128) ∨ c = '-' ∨ ∃ n < 36, c = digit n := by
  rcases List.mem_append.mp h with h | h
  · rcases List.mem_append.mp h with h | h
    · exact .inl (by simpa using h)
    · split at h
      · cases h
      · exact .inr (.inl (List.mem_singleton.mp h))
  · exact .inr (.inr (ofDigits_insertAll label 128 _ (by simp [OfDigits]) c h))

end Punycode

/-! ## Names -/

namespace Name

variable {n s label : List Char} {c : Char}

/-- A name in ASCII whose labels stand for labels that go together. -/
structure IsName (n : List Char) : Prop where
  ascii : isAscii n = true
  low : Text.Low n
  meaning : ∃ meanings, (Text.split (· == '.') n).mapM meaning? = some meanings ∧
    directionsAgree meanings = true

/-- No code in the name is too long to be found. -/
def CodesFit (n : List Char) : Prop :=
  ∀ label ∈ Text.split (· == '.') n, (code? label).all (·.length ≤ longestCode) = true

instance : Decidable (CodesFit n) := inferInstanceAs (Decidable (∀ label ∈ _, _))

theorem isAscii_iff : isAscii s = true ↔ ∀ c ∈ s, c.toNat < 128 := by
  simp [isAscii]

theorem isAscii_of_mem_split (h : isAscii n = true) (hlabel : label ∈ Text.split (· == '.') n) :
    isAscii label = true :=
  isAscii_iff.mpr fun c hc => isAscii_iff.mp h c (Text.mem_split hlabel c hc).1

/-! ### Labels -/

/-- The characters of a label in ASCII. -/
def IsLabelChar (c : Char) : Prop := c.toNat < 128 ∧ c.isUpper = false ∧ c ≠ '.'

instance : Decidable (IsLabelChar c) := inferInstanceAs (Decidable (_ ∧ _))

theorem isLabelChar_of_asciiLabel? {coded : List Char} (hlow : Text.Low label)
    (hpoint : ∀ c ∈ label, c ≠ '.') (h : asciiLabel? label = some coded) :
    ∀ c ∈ coded, IsLabelChar c := by
  have hdigit : ∀ n < 36, IsLabelChar (Punycode.digit n) := by decide +kernel
  have hmark : ∀ c ∈ codeMark, IsLabelChar c := by
    simp only [codeMark, List.forall_mem_cons, List.not_mem_nil, false_implies, implies_true]
    decide
  rw [asciiLabel?] at h
  split at h
  · next hascii =>
    split at h
    · cases h
    · cases h
      exact fun c hc => ⟨isAscii_iff.mp hascii c hc, hlow c hc, hpoint c hc⟩
  · split at h
    · cases h
    · cases h
      intro c hc
      rcases List.mem_append.mp hc with hc | hc
      · exact hmark c hc
      · rcases Punycode.mem_encode hc with ⟨hmem, hascii⟩ | rfl | ⟨n, hn, rfl⟩
        · exact ⟨hascii, hlow c hmem, hpoint c hmem⟩
        · decide
        · exact hdigit n hn

/-- A label in ASCII is its own form in ASCII, if its code is not too long. -/
theorem asciiLabel?_of_isAscii (h : isAscii label = true) :
    asciiLabel? label =
      if (code? label).all (·.length ≤ longestCode) then some label else none := by
  rw [asciiLabel?, if_pos h]
  cases code? label with
  | none => rfl
  | some code =>
      by_cases hlength : code.length ≤ longestCode
      · simp [hlength, Nat.not_lt.mpr hlength]
      · simp [hlength, Nat.lt_of_not_le hlength]

/-! ### Whole names -/

/-- The stages that lead to the form in ASCII. -/
theorem exists_of_ascii? (h : ascii? s = some n) :
    ∃ t labels meanings, fold? s = some t ∧
      (Text.split (· == '.') t).mapM asciiLabel? = some labels ∧
      labels.mapM meaning? = some meanings ∧ directionsAgree meanings = true ∧
      n = ['.'].intercalate labels := by
  rw [ascii?] at h
  split at h
  · cases h
  · next t ht =>
    split at h
    · cases h
    · next labels hlabels =>
      split at h
      · cases h
      · next meanings hmeanings =>
        split at h
        · next hagree =>
          exact ⟨t, labels, meanings, ht, hlabels, hmeanings, hagree, (Option.some.inj h).symm⟩
        · cases h

/-- The form of a host name in ASCII. -/
theorem isName_of_ascii? (h : ascii? s = some n) : IsName n := by
  obtain ⟨t, labels, meanings, ht, hlabels, hmeanings, hagree, rfl⟩ := exists_of_ascii? h
  have hlow := low_fold? ht
  have hchars : ∀ label ∈ labels, ∀ c ∈ label, IsLabelChar c := by
    intro label hlabel
    obtain ⟨part, hpart, hcoded⟩ := exists_of_mem_mapM hlabels label hlabel
    have hmem := Text.mem_split hpart
    exact isLabelChar_of_asciiLabel? (fun c hc => hlow c (hmem c hc).1)
      (fun c hc => by simpa using (hmem c hc).2) hcoded
  have hne : labels ≠ [] := by
    rintro rfl
    have := (mapM_eq_some_iff.mp hlabels).length_eq
    exact Text.split_ne_nil _ _ (List.length_eq_zero_iff.mp this)
  have hsplit : Text.split (· == '.') (['.'].intercalate labels) = labels := by
    refine Text.split_intercalate (by decide) hne fun label hlabel c hc => ?_
    exact beq_eq_false_iff_ne.mpr (hchars label hlabel c hc).2.2
  have hall : ∀ c ∈ ['.'].intercalate labels, c.toNat < 128 ∧ c.isUpper = false := by
    intro c hc
    rcases Text.mem_intercalate hc with rfl | ⟨label, hlabel, hc⟩
    · decide
    · exact ⟨(hchars label hlabel c hc).1, (hchars label hlabel c hc).2.1⟩
  exact ⟨isAscii_iff.mpr fun c hc => (hall c hc).1, fun c hc => (hall c hc).2,
    meanings, hsplit.symm ▸ hmeanings, hagree⟩

/-- Such a name is its own form, unless one of its codes is too long to be found. -/
theorem ascii?_of_isName (h : IsName n) : ascii? n = if CodesFit n then some n else none := by
  have hfold : fold? n = some n := by rw [fold?, if_pos h.ascii, h.low.map_toLower]
  have hlabel : ∀ label ∈ Text.split (· == '.') n, asciiLabel? label =
      if (code? label).all (·.length ≤ longestCode) then some label else none :=
    fun label hlabel => asciiLabel?_of_isAscii (isAscii_of_mem_split h.ascii hlabel)
  obtain ⟨meanings, hmeanings, hagree⟩ := h.meaning
  rw [ascii?, hfold]
  dsimp only
  by_cases hfit : CodesFit n
  · have hlabels : (Text.split (· == '.') n).mapM asciiLabel? = some (Text.split (· == '.') n) := by
      rw [mapM_eq_some_iff, List.forall₂_same]
      intro label hmem
      rw [hlabel label hmem, if_pos (hfit label hmem)]
    rw [hlabels, if_pos hfit]
    dsimp only
    rw [hmeanings]
    dsimp only
    rw [if_pos hagree, Text.intercalate_split]
  · have hlong := hfit
    simp only [CodesFit, not_forall] at hlong
    obtain ⟨label, hmem, hlong⟩ := hlong
    have hnone : asciiLabel? label = none := by rw [hlabel label hmem, if_neg hlong]
    rw [mapM_eq_none hmem hnone, if_neg hfit]

theorem directionsAgree_of_isAscii {labels : List (List Char)}
    (h : ∀ label ∈ labels, isAscii label = true) : directionsAgree labels = true := by
  have hleft : ∀ c : Char, c.toNat < 128 → (Direction.of c).isFromRight = false := by
    intro c hc
    rw [Direction.of, if_pos hc]
    split
    · rfl
    · split <;> rfl
  have hnone : (labels.map (·.map Direction.of)).any (·.any Direction.isFromRight) = false := by
    simp only [List.any_map, List.any_eq_false, Function.comp_apply, List.any_eq_true, not_exists,
      not_and, Bool.not_eq_true]
    exact fun label hlabel c hc => hleft c (isAscii_iff.mp (h label hlabel) c hc)
  simp [directionsAgree, hnone]

/-- A text in ASCII and lower case without codes is a name. -/
theorem isName_of_no_code (hascii : isAscii n = true) (hlow : Text.Low n)
    (h : ∀ label ∈ Text.split (· == '.') n, code? label = none) : IsName n ∧ CodesFit n := by
  refine ⟨⟨hascii, hlow, Text.split (· == '.') n, ?_, ?_⟩,
    fun label hlabel => by simp [h label hlabel]⟩
  · rw [mapM_eq_some_iff, List.forall₂_same]
    intro label hlabel
    rw [meaning?, h label hlabel]
  · exact directionsAgree_of_isAscii fun label hlabel => isAscii_of_mem_split hascii hlabel

end Name

end Url

end Nullness
