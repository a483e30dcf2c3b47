/-!
# Texts split at marks
-/

namespace Nullness

namespace Text

/-- The parts of a text between marks; one part more than there are marks. -/
def split (isMark : Char → Bool) (cs : List Char) : List (List Char) :=
  cs.foldr (fun c parts =>
    if isMark c then [] :: parts
    else
      match parts with
      | [] => [[c]]
      | part :: parts => (c :: part) :: parts) [[]]

variable {isMark : Char → Bool}

@[simp] theorem split_nil : split isMark [] = [[]] := rfl

theorem split_cons (c : Char) (cs : List Char) :
    split isMark (c :: cs) =
      if isMark c then [] :: split isMark cs
      else
        match split isMark cs with
        | [] => [[c]]
        | part :: parts => (c :: part) :: parts := rfl

theorem split_ne_nil (isMark : Char → Bool) (cs : List Char) : split isMark cs ≠ [] := by
  cases cs with
  | nil => simp
  | cons c cs =>
    rw [split_cons]
    split
    · simp
    · split <;> simp

/-- A text is split at each of its marks on its own. -/
theorem split_append_of_mark {c : Char} (h : isMark c = true) (s t : List Char) :
    split isMark (s ++ c :: t) = split isMark s ++ split isMark t := by
  induction s with
  | nil => simp [split_cons, h]
  | cons d s ih =>
    rw [List.cons_append, split_cons, split_cons, ih]
    by_cases hd : isMark d = true
    · simp [hd]
    · obtain ⟨part, parts, hs⟩ := List.exists_cons_of_ne_nil (split_ne_nil isMark s)
      simp [hd, hs]

theorem split_of_no_mark {s : List Char} (h : ∀ c ∈ s, isMark c = false) :
    split isMark s = [s] := by
  induction s with
  | nil => rfl
  | cons c s ih =>
    rw [split_cons, ih fun d hd => h d (List.mem_cons_of_mem c hd), h c List.mem_cons_self]
    rfl

/-- The parts of a text hold what is in it, without the marks. -/
theorem mem_split {s part : List Char} (h : part ∈ split isMark s) :
    ∀ c ∈ part, c ∈ s ∧ isMark c = false := by
  induction s generalizing part with
  | nil =>
    obtain rfl := List.mem_singleton.mp h
    simp
  | cons d s ih =>
    obtain ⟨front, parts, hs⟩ := List.exists_cons_of_ne_nil (split_ne_nil isMark s)
    rw [hs] at ih
    have later : ∀ part ∈ front :: parts, ∀ c ∈ part, c ∈ d :: s ∧ isMark c = false :=
      fun _ hpart c hc => (ih hpart c hc).imp_left (List.mem_cons_of_mem d)
    rw [split_cons, hs] at h
    split at h
    · rcases List.mem_cons.mp h with rfl | h
      · simp
      · exact later part h
    · next hd =>
      rcases List.mem_cons.mp h with rfl | h
      · intro c hc
        rcases List.mem_cons.mp hc with rfl | hc
        · exact ⟨List.mem_cons_self, Bool.eq_false_iff.mpr hd⟩
        · exact later front List.mem_cons_self c hc
      · exact later part (List.mem_cons_of_mem front h)

/-- Parts that are put together with a mark between them are found again. -/
theorem split_intercalate {mark : Char} (hmark : isMark mark = true) {parts : List (List Char)}
    (hne : parts ≠ []) (h : ∀ part ∈ parts, ∀ c ∈ part, isMark c = false) :
    split isMark ([mark].intercalate parts) = parts := by
  induction parts with
  | nil => exact absurd rfl hne
  | cons part parts ih =>
    have hpart := split_of_no_mark (h part List.mem_cons_self)
    by_cases hparts : parts = []
    · rw [hparts, List.intercalate_singleton, hpart]
    · rw [List.intercalate_cons_of_ne_nil hparts, List.append_assoc, List.singleton_append,
        split_append_of_mark hmark, hpart,
        ih hparts fun p hp => h p (List.mem_cons_of_mem part hp)]
      rfl

theorem mem_intercalate {mark c : Char} {parts : List (List Char)}
    (h : c ∈ [mark].intercalate parts) : c = mark ∨ ∃ part ∈ parts, c ∈ part := by
  induction parts with
  | nil => cases h
  | cons part parts ih =>
    by_cases hparts : parts = []
    · rw [hparts, List.intercalate_singleton] at h
      exact .inr ⟨part, List.mem_cons_self, h⟩
    · rw [List.intercalate_cons_of_ne_nil hparts, List.append_assoc, List.singleton_append] at h
      rcases List.mem_append.mp h with h | h
      · exact .inr ⟨part, List.mem_cons_self, h⟩
      · rcases List.mem_cons.mp h with h | h
        · exact .inl h
        · exact (ih h).imp_right fun ⟨p, hp, hc⟩ => ⟨p, List.mem_cons_of_mem part hp, hc⟩

/-- The parts of a text with the marks between them are the text. -/
theorem intercalate_split (mark : Char) (s : List Char) :
    [mark].intercalate (split (· == mark) s) = s := by
  induction s with
  | nil => rfl
  | cons c s ih =>
    obtain ⟨part, parts, hs⟩ := List.exists_cons_of_ne_nil (split_ne_nil (· == mark) s)
    rw [split_cons]
    split
    · next hc =>
      rw [List.intercalate_cons_of_ne_nil (split_ne_nil _ _), ih, beq_iff_eq.mp hc]
      rfl
    · rw [hs] at ih ⊢
      by_cases hparts : parts = []
      · simpa [hparts] using ih
      · simpa [List.intercalate_cons_of_ne_nil hparts] using ih

/-- A text around the last occurrence of a character. -/
def splitLast? (sep : Char) (s : List Char) : Option (List Char × List Char) :=
  let r := s.reverse
  match r.dropWhile (· ≠ sep) with
  | [] => none
  | _ :: front => some (front.reverse, (r.takeWhile (· ≠ sep)).reverse)

/-- The words of a line, between blanks. -/
def words (line : String) : List (List Char) :=
  (split (· == ' ') line.toList).filter (!·.isEmpty)

end Text

end Nullness
