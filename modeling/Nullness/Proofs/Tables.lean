import Mathlib
import Nullness.Url.Name

/-!
# What the tables of characters hold

Two things about the tables that fold and compose the characters of a name are not seen from the
way they are used: they bring back no capital letter of ASCII, and they leave the ideographs
alone. The tables are checked line by line, the sets of characters range by range.

- `Text.isFit_of_composites`, `Url.Name.isFit_of_foldings`: the tables.
- `Text.not_contains_of_spares`: no ideograph belongs to a set that spares them.
-/

namespace Nullness

namespace Text

variable {c : Char} {s : CharSet}

/-! ## Tables -/

section Tables
variable {α : Type} {read : List Char → Option α} {p : α → Bool}

/-- All that is read from the words of a table has the property. -/
def TableAll (read : List Char → Option α) (p : α → Bool) (table : List String) : Prop :=
  ∀ a ∈ table.flatMap fun line => (words line).filterMap read, p a = true

/-- A table is checked as the lists of characters that its lines are. -/
theorem tableAll_of_lines {table : List String} {lines : List (List Char)}
    (hlines : List.Forall₂ (fun text line => text = String.ofList line) table lines)
    (h : (lines.all fun line => ((split (· == ' ') line).filter (!·.isEmpty)).all fun word =>
      (read word).all p) = true) : TableAll read p table := by
  induction hlines with
  | nil => simp [TableAll]
  | @cons text line table lines htext _ ih =>
      obtain ⟨hline, hrest⟩ := Bool.and_eq_true_iff.mp h
      intro a ha
      rw [List.flatMap_cons] at ha
      rcases List.mem_append.mp ha with ha | ha
      · obtain ⟨word, hword, hread⟩ := List.mem_filterMap.mp ha
        rw [htext, words, String.toList_ofList] at hword
        simpa [hread] using List.all_eq_true.mp hline word hword
      · exact ih hrest a ha

theorem TableAll.append {table table' : List String} (h : TableAll read p table)
    (h' : TableAll read p table') : TableAll read p (table ++ table') := by
  intro a ha
  rw [List.flatMap_append] at ha
  exact (List.mem_append.mp ha).elim (h a) (h' a)

end Tables

/-! ## What is checked -/

/-- The code point is not that of a capital letter of ASCII. -/
def isLowCode (n : Nat) : Bool := n < 65 || 90 < n

/-- The code point is that of one of the unified ideographs. -/
def isIdeograph (n : Nat) : Bool := 0x4e00 ≤ n && n ≤ 0x9fff

/-- No ideograph is in the range. -/
def sparesIdeographs (first last : Nat) : Bool := last < 0x4e00 || 0x9fff < first

theorem not_mem_of_sparesIdeographs {first last n : Nat} (h : sparesIdeographs first last = true)
    (hn : isIdeograph n = true) : ¬ (first ≤ n ∧ n ≤ last) := by
  simp only [sparesIdeographs, isIdeograph, Bool.or_eq_true, Bool.and_eq_true,
    decide_eq_true_eq] at h hn
  omega

/-! ## Composites -/

/-- No character of the composite is a capital letter of ASCII, and neither it nor its base is an
ideograph. -/
def Composite.isFit (k : Composite) : Bool :=
  !k.base.isUpper && !k.mark.isUpper && !k.whole.isUpper &&
    !isIdeograph k.base.toNat && !isIdeograph k.whole.toNat

theorem isFit_of_composites : ∀ k ∈ composites, k.isFit = true := by
  show TableAll composite? Composite.isFit compositeTable
  refine tableAll_of_lines (by repeat' constructor) ?_
  decide +kernel

/-! ## Sets -/

/-- No ideograph belongs to the set. -/
def CharSet.Spares (s : CharSet) : Prop := ∀ r ∈ s.ranges, sparesIdeographs r.1 r.2 = true

theorem CharSet.spares_ofLines {lines : List String}
    (h : TableAll range? (fun r => sparesIdeographs r.1 r.2) lines) :
    (CharSet.ofLines lines).Spares :=
  h

theorem not_contains_of_spares (h : s.Spares) (hc : isIdeograph c.toNat = true) :
    s.contains c = false := by
  rw [CharSet.contains, List.any_eq_false]
  intro r hr
  simpa using not_mem_of_sparesIdeographs (h r hr) hc

theorem spares_marks : nonspacingMarks.Spares ∧ spacingMarks.Spares := by
  constructor
  all_goals
    refine CharSet.spares_ofLines (tableAll_of_lines (by repeat' constructor) ?_)
    decide +kernel

theorem spares_combiningClasses : ∀ k ∈ combiningClasses, k.2.Spares := by
  simp only [combiningClasses, List.forall_mem_cons]
  repeat
    refine ⟨CharSet.spares_ofLines (tableAll_of_lines (by repeat' constructor) ?_), ?_⟩
    · decide +kernel
  exact fun _ hk => absurd hk List.not_mem_nil

end Text

/-! ## Foldings -/

namespace Url.Name

open Text

/-- No character is folded to a capital letter of ASCII, and no ideograph is folded. Pairs are of
characters beyond ASCII. -/
def Folding.isFit : Folding → Bool
  | range first last image =>
    (image + (last - first) < 65 || 90 < image) && sparesIdeographs first last
  | pairs first last => sparesIdeographs first last
  | texts first images =>
    images.all (·.all isLowCode) && sparesIdeographs first (first + images.length)

theorem isFit_of_foldings : ∀ f ∈ foldings, f.isFit = true := by
  refine (TableAll.append ?_ ?_).append ?_ |>.append ?_ |>.append ?_ |>.append ?_
  all_goals
    refine tableAll_of_lines (by repeat' constructor) ?_
    decide +kernel

theorem spares_foldChar : ignored.Spares ∧ refused.Spares ∧ unassigned.Spares := by
  refine ⟨?_, ?_, ?_⟩
  all_goals
    refine CharSet.spares_ofLines (tableAll_of_lines (by repeat' constructor) ?_)
    decide +kernel

theorem spares_fromRight : rightCharacters.Spares ∧ arabicDigits.Spares := by
  constructor
  all_goals
    refine CharSet.spares_ofLines (tableAll_of_lines (by repeat' constructor) ?_)
    decide +kernel

end Url.Name

end Nullness
