import Mathlib
import Nullness.Proofs.Codes

/-!
# Names of ideographs

Ideographs stand for themselves: they are not folded and not composed with others, and a label of
them may always be written as a code. So the form in ASCII of an ascending label is its code, and
with enough characters in it no name any more: the code is longer than one that is found may be.

- `Text.composed_of_ideographs`, `Url.Name.fold?_of_ideographs`: ideographs stay.
- `Url.Name.ascii?_of_ideographs`: the form in ASCII of an ascending label.
- `Url.Name.not_codesFit_of_ideographs`: a name whose code is too long.
-/

namespace Nullness

/-- There are only ideographs. -/
def Text.OfIdeographs (s : List Char) : Prop := ∀ c ∈ s, isIdeograph c.toNat = true

namespace Text

variable {c d : Char} {s : List Char}

theorem OfIdeographs.of_cons (h : OfIdeographs (c :: s)) :
    isIdeograph c.toNat = true ∧ OfIdeographs s :=
  List.forall_mem_cons.mp h

theorem isIdeograph_iff {n : Nat} : isIdeograph n = true ↔ 0x4e00 ≤ n ∧ n ≤ 0x9fff := by
  simp [isIdeograph]

/-! ## Composition -/

theorem combiningClass_of_isIdeograph (h : isIdeograph c.toNat = true) : combiningClass c = 0 := by
  have hnone : (combiningClasses.find? fun k => k.2.contains c) = none :=
    List.find?_eq_none.mpr fun k hk => by
      simp [not_contains_of_spares (spares_combiningClasses k hk) h]
  rw [combiningClass]
  split
  · rfl
  · exact congrArg (fun k => (Option.map Prod.fst k).getD 0) hnone

theorem halves?_of_isIdeograph (h : isIdeograph c.toNat = true) : halves? c = none := by
  have hbounds := isIdeograph_iff.mp h
  have hnone : (composites.find? fun k => k.whole == c) = none :=
    List.find?_eq_none.mpr fun k hk => by
      rintro hsame
      obtain rfl := eq_of_beq hsame
      have := isFit_of_composites k hk
      simp [Composite.isFit, h] at this
  rw [halves?, if_neg (by omega), hnone]
  rfl

theorem whole?_of_isIdeograph (h : isIdeograph c.toNat = true) (d : Char) : whole? c d = none := by
  have hbounds := isIdeograph_iff.mp h
  have hnone : (composites.find? fun k => k.base == c && k.mark == d) = none :=
    List.find?_eq_none.mpr fun k hk => by
      rintro hsame
      obtain rfl := eq_of_beq (Bool.and_eq_true_iff.mp hsame).1
      have := isFit_of_composites k hk
      simp [Composite.isFit, h] at this
  have hsyllable : syllable? c d = none := by
    rw [syllable?, if_neg (by omega), if_neg (by omega)]
  rw [whole?, hsyllable, hnone]
  rfl

theorem flatMap_takenApart (n : Nat) (h : OfIdeographs s) : s.flatMap (takenApart n) = s := by
  have hsame : ∀ c ∈ s, takenApart n c = [c] := by
    intro c hc
    cases n with
    | zero => rfl
    | succ n => rw [takenApart, halves?_of_isIdeograph (h c hc)]
  rw [List.flatMap_congr hsame, List.flatMap_singleton']

theorem ordered_of_ideographs (h : OfIdeographs s) : ordered s = s := by
  induction s with
  | nil => rfl
  | cons c s ih =>
      have hput : putMark c s = c :: s := by
        cases s with
        | nil => rfl
        | cons d s =>
            have hd := combiningClass_of_isIdeograph h.of_cons.2.of_cons.1
            rw [putMark, if_neg fun hmark => hmark.1 hd]
      exact (congrArg (putMark c) (ih h.of_cons.2)).trans hput

theorem takeMarks_of_ideographs (hc : isIdeograph c.toNat = true) (h : OfIdeographs s) :
    takeMarks c [] s = c :: s := by
  induction s generalizing c with
  | nil => rfl
  | cons d s ih =>
      obtain ⟨hd, hs⟩ := h.of_cons
      rw [takeMarks]
      simp only [List.getLast?_nil, Option.any_none, Bool.false_eq_true, if_false,
        whole?_of_isIdeograph hc d, combiningClass_of_isIdeograph hd, if_true]
      rw [ih hd hs]
      rfl

theorem composed_of_ideographs (h : OfIdeographs s) : composed s = s := by
  rw [composed, flatMap_takenApart 3 h, ordered_of_ideographs h]
  cases s with
  | nil => rfl
  | cons c s => exact takeMarks_of_ideographs h.of_cons.1 h.of_cons.2

end Text

/-! ## Names -/

namespace Url.Name

open Text

variable {c : Char} {s label : List Char}

theorem not_lt_of_isIdeograph (h : isIdeograph c.toNat = true) : ¬ c.toNat < 128 := by
  have := isIdeograph_iff.mp h
  omega

theorem ne_of_isIdeograph {d : Char} (h : isIdeograph c.toNat = true) (hd : d.toNat < 128) :
    c ≠ d := by
  rintro rfl
  exact not_lt_of_isIdeograph h hd

theorem image?_of_isIdeograph {f : Folding} (hf : f.isFit = true) (h : isIdeograph c.toNat = true) :
    f.image? c.toNat = none := by
  cases f with
  | range first last image =>
      exact if_neg (not_mem_of_sparesIdeographs (Bool.and_eq_true_iff.mp hf).2 h)
  | pairs first last =>
      refine if_neg fun hmem => ?_
      exact not_mem_of_sparesIdeographs hf h ⟨hmem.1, hmem.2.1⟩
  | texts first images =>
      have hout := not_mem_of_sparesIdeographs (Bool.and_eq_true_iff.mp hf).2 h
      rw [Folding.image?]
      split
      · exact List.getElem?_eq_none (by omega)
      · rfl

theorem foldChar?_of_isIdeograph (h : isIdeograph c.toNat = true) : foldChar? c = some [c] := by
  have hnone : foldings.findSome? (·.image? c.toNat) = none :=
    List.findSome?_eq_none_iff.mpr fun f hf => image?_of_isIdeograph (isFit_of_foldings f hf) h
  rw [foldChar?, if_neg (not_lt_of_isIdeograph h), hnone]
  simp [not_contains_of_spares spares_foldChar.1 h, not_contains_of_spares spares_foldChar.2.1 h,
    not_contains_of_spares spares_foldChar.2.2 h]

theorem isAscii_of_ideographs (h : OfIdeographs label) (hne : label ≠ []) :
    isAscii label = false := by
  obtain ⟨c, s, rfl⟩ := List.exists_cons_of_ne_nil hne
  simp [isAscii, not_lt_of_isIdeograph h.of_cons.1]

/-- Ideographs are not folded. -/
theorem fold?_of_ideographs (h : OfIdeographs label) : fold? label = some label := by
  by_cases hne : label = []
  · rw [hne]
    rfl
  · have hparts : label.mapM foldChar? = some (label.map fun c => [c]) := by
      rw [mapM_eq_some_iff, List.forall₂_map_right_iff, List.forall₂_same]
      exact fun c hc => foldChar?_of_isIdeograph (h c hc)
    have hflat : (label.map fun c => [c]).flatten = label := by
      rw [← List.flatMap_def, List.flatMap_singleton']
    rw [fold?, isAscii_of_ideographs h hne, if_neg Bool.false_ne_true, hparts, Option.map_some,
      hflat, composed_of_ideographs h]

theorem code?_of_ideographs (h : OfIdeographs label) : code? label = none := by
  refine if_neg fun hmark => ?_
  have hx : 'x' ∈ label := (List.isPrefixOf_iff_prefix.mp hmark).subset (by decide)
  exact ne_of_isIdeograph (h 'x' hx) (by decide) rfl

theorem code?_append (code : List Char) : code? (codeMark ++ code) = some code := by
  rw [code?, if_pos (List.isPrefixOf_iff_prefix.mpr (List.prefix_append _ _))]
  rfl

theorem joinersFit_of_ideographs (h : OfIdeographs label) (before : List Char) :
    joinersFit before label = true := by
  induction label generalizing before with
  | nil => rfl
  | cons c label ih =>
      have hbounds := isIdeograph_iff.mp h.of_cons.1
      have hne : ∀ d : Char, d.toNat < 0x4e00 → c ≠ d := by
        rintro d hd rfl
        omega
      rw [joinersFit, if_neg (hne _ (by decide)), if_neg (hne _ (by decide)), ih h.of_cons.2]
      rfl

/-- A label of ideographs may be written as a code. -/
theorem isCodable_of_ideographs (h : OfIdeographs label) (hne : label ≠ [])
    (hlength : label.length ≤ longestLabel) : isCodable label = true := by
  have hmark : label.head?.any isMark = false := by
    obtain ⟨c, s, rfl⟩ := List.exists_cons_of_ne_nil hne
    simp [isMark, not_contains_of_spares spares_marks.1 h.of_cons.1,
      not_contains_of_spares spares_marks.2 h.of_cons.1]
  simp [isCodable, isAscii_of_ideographs h hne, hlength, fold?_of_ideographs h,
    code?_of_ideographs h, hmark, joinersFit_of_ideographs h]

theorem directionsAgree_of_ideographs (h : OfIdeographs label) :
    directionsAgree [label] = true := by
  have hleft : ∀ c ∈ label, (Direction.of c).isFromRight = false := by
    intro c hc
    rw [Direction.of, if_neg (not_lt_of_isIdeograph (h c hc)),
      not_contains_of_spares spares_fromRight.1 (h c hc),
      not_contains_of_spares spares_fromRight.2 (h c hc)]
    repeat' split
    all_goals first | rfl | contradiction
  have hnone : ([label].map (·.map Direction.of)).any (·.any Direction.isFromRight) = false := by
    simpa using hleft
  rw [directionsAgree, hnone]
  rfl

theorem asciiLabel?_of_ideographs (h : OfIdeographs label) (hne : label ≠ [])
    (hlength : label.length ≤ longestLabel) :
    asciiLabel? label = some (codeMark ++ Punycode.encode label) := by
  rw [asciiLabel?, isAscii_of_ideographs h hne, if_neg Bool.false_ne_true,
    if_neg (Nat.not_lt.mpr hlength)]

/-- The form in ASCII of an ascending label of ideographs is its code. -/
theorem ascii?_of_ideographs (h : OfIdeographs label) (hascending : Punycode.Ascending label)
    (hne : label ≠ []) (hlength : label.length ≤ longestLabel) :
    ascii? label = some (codeMark ++ Punycode.encode label) := by
  have hsplit : Text.split (· == '.') label = [label] :=
    Text.split_of_no_mark fun c hc => by
      simpa using ne_of_isIdeograph (d := '.') (h c hc) (by decide)
  have hcodes : ∀ c ∈ label, 128 ≤ c.toNat ∧ c.toNat < 65536 := by
    intro c hc
    have := isIdeograph_iff.mp (h c hc)
    omega
  have hmeaning : meaning? (codeMark ++ Punycode.encode label) = some label := by
    rw [meaning?, code?_append]
    dsimp only
    rw [Punycode.decode?_encode hascending hcodes hlength, Option.filter_some,
      if_pos (isCodable_of_ideographs h hne hlength)]
  have hall : ([label].mapM asciiLabel? = some [codeMark ++ Punycode.encode label]) ∧
      ([codeMark ++ Punycode.encode label].mapM meaning? = some [label]) := by
    simp [asciiLabel?_of_ideographs h hne hlength, hmeaning]
  rw [ascii?, fold?_of_ideographs h]
  dsimp only
  rw [hsplit, hall.1]
  dsimp only
  rw [hall.2]
  dsimp only
  rw [if_pos (directionsAgree_of_ideographs h), List.intercalate_singleton]

theorem split_codeMark_append (h : OfIdeographs label) (hne : label ≠ [])
    (hlength : label.length ≤ longestLabel) :
    Text.split (· == '.') (codeMark ++ Punycode.encode label) =
      [codeMark ++ Punycode.encode label] := by
  have hchars := isLabelChar_of_asciiLabel? (low_fold? (fold?_of_ideographs h))
    (fun c hc => ne_of_isIdeograph (h c hc) (by decide)) (asciiLabel?_of_ideographs h hne hlength)
  exact Text.split_of_no_mark fun c hc => by simpa using (hchars c hc).2.2

/-! ## A code that is too long -/

/-- A code that is too long is not found in the form in ASCII of a label. -/
theorem not_codesFit_of_ideographs (h : OfIdeographs label) (hne : label ≠ [])
    (hlength : label.length ≤ longestLabel)
    (hlong : longestCode < (Punycode.encode label).length) :
    ¬ CodesFit (codeMark ++ Punycode.encode label) := by
  intro hfit
  have hlabel := hfit (codeMark ++ Punycode.encode label) (by
    rw [split_codeMark_append h hne hlength]
    exact List.mem_singleton_self _)
  rw [code?_append] at hlabel
  simp [Nat.not_le.mpr hlong] at hlabel

/-- As many ideographs as may be written as a code, twenty code points apart. -/
def longLabel : List Char := (List.range 1000).map fun i => Char.ofNat (0x4e00 + 20 * i)

theorem toNat_of_lt {i : Nat} (h : i < 1000) :
    (Char.ofNat (0x4e00 + 20 * i)).toNat = 0x4e00 + 20 * i := by
  rw [Char.toNat_ofNat, if_pos (Or.inl (by omega))]

theorem length_longLabel : longLabel.length = 1000 := by simp [longLabel]

theorem ofIdeographs_longLabel : OfIdeographs longLabel := by
  intro c hc
  obtain ⟨i, hi, rfl⟩ := List.mem_map.mp hc
  rw [isIdeograph_iff, toNat_of_lt (List.mem_range.mp hi)]
  have := List.mem_range.mp hi
  omega

theorem pairwise_longLabel : longLabel.Pairwise fun c d => c.toNat + 20 ≤ d.toNat := by
  rw [longLabel, List.pairwise_map]
  refine List.pairwise_lt_range.imp_of_mem fun {i j} hi hj hij => ?_
  rw [toNat_of_lt (List.mem_range.mp hi), toNat_of_lt (List.mem_range.mp hj)]
  omega

theorem ascending_longLabel : Punycode.Ascending longLabel :=
  pairwise_longLabel.imp fun {c d} h => by omega

theorem longestCode_lt_longLabel : longestCode < (Punycode.encode longLabel).length := by
  have hcodes : ∀ c ∈ longLabel, 128 + 20 ≤ c.toNat := by
    intro c hc
    have := isIdeograph_iff.mp (ofIdeographs_longLabel c hc)
    omega
  have hlength := Punycode.le_length_codeBehind 0 72 pairwise_longLabel hcodes
  rw [← Punycode.encode_of_ascending ascending_longLabel
    fun c hc => le_trans (by omega) (hcodes c hc), length_longLabel] at hlength
  rw [longestCode]
  omega

end Url.Name

/-! ## Hosts -/

namespace Url

open Text

variable {c : Char} {label : List Char}

theorem isHostChar_of_isIdeograph (h : isIdeograph c.toNat = true) :
    isHostChar c = true ∧ c ≠ ':' ∧ c ≠ '[' ∧ c ≠ ']' := by
  have hne : ∀ d : Char, d.toNat < 128 → c ≠ d := fun d hd => Name.ne_of_isIdeograph h hd
  have hblank : ' ' < c := by
    have := isIdeograph_iff.mp h
    rw [Char.lt_def, UInt32.lt_iff_toNat_lt]
    exact Nat.lt_of_lt_of_le (by decide) this.1
  refine ⟨?_, hne _ (by decide), hne _ (by decide), hne _ (by decide)⟩
  simp [isHostChar, hblank, hne]

/-- A host of ascending ideographs is the name that their code makes. -/
theorem Host.ofSpecial_of_ideographs (h : OfIdeographs label)
    (hascending : Punycode.Ascending label) (hne : label ≠ [])
    (hlength : label.length ≤ Name.longestLabel) :
    Host.ofSpecial label = .ok (.name (Name.codeMark ++ Punycode.encode label)) := by
  have hhead : label.head? ≠ some '[' := fun hhead =>
    (isHostChar_of_isIdeograph (h _ (List.mem_of_mem_head? hhead))).2.2.1 rfl
  have hpercent : '%' ∉ label := fun hmem => Name.ne_of_isIdeograph (h _ hmem) (by decide) rfl
  have hchars : (Name.codeMark ++ Punycode.encode label).any isForbidden = false := by
    have hmark : Name.codeMark.any isForbidden = false := by decide
    have hdigit : ∀ n < 36, isForbidden (Punycode.digit n) = false := by decide +kernel
    rw [List.any_append, hmark, Bool.false_or]
    refine any_eq_false_of_forall fun c hc => ?_
    rcases Punycode.mem_encode hc with ⟨hmem, hascii⟩ | rfl | ⟨n, hn, rfl⟩
    · exact absurd hascii (Name.not_lt_of_isIdeograph (h c hmem))
    · decide
    · exact hdigit n hn
  have hnumber : endsInNumber (Name.codeMark ++ Punycode.encode label) = false := by
    rw [endsInNumber, hostParts, Name.split_codeMark_append h hne hlength]
    rfl
  rw [Host.ofSpecial, if_neg hhead, decode?_of_not_mem hpercent, Option.bind_some,
    Name.ascii?_of_ideographs h hascending hne hlength]
  dsimp only
  rw [hchars, hnumber]
  rfl

end Url

end Nullness
