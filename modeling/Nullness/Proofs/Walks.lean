import Nullness.Proofs.Escapes
import Nullness.Url.Path

/-!
# Walks along written paths

A walk leaves behind segments in which nothing is to be encoded and nothing ends them. If none of
them is a step and the first is no drive, a walk along their text finds them again. In the path of
a file a step can stand among them, behind the break that ends the name of a drive. A walk along
a text without breaks leaves no step, so such a path is not found again.

- `Url.Walked`: the rows of segments that walks find.
- `Url.Walk.along_text`: the walk along the text of a path.
- `Url.Walk.steps_along`: a walk without breaks leaves no step.
- `Url.Walk.along_text_of_drive`: a drive in front is met again.
-/

namespace Nullness

namespace Url

variable {kind : SchemeKind} {s t : List Char} {ss ts : List (List Char)}

/-! ## Segments -/

/-- The segment is only a step. -/
def isStep (s : List Char) : Bool := isDot s || isDoubleDot s

/-- The segment stands as it is: nothing in it is to be encoded, and nothing ends it. -/
def PlainSegment (kind : SchemeKind) (s : List Char) : Prop :=
  ∀ c ∈ s, pathSet c = false ∧ kind.endsSegment c = false

/-- A step behind the name of a drive in front, and no other steps. -/
inductive StepBehindDrive : List (List Char) → Prop
  | intro {drive step : List Char} {rest : List (List Char)} (hdrive : isDrive drive = true)
      (hstep : isStep step = true) (hrest : ∀ s ∈ rest, isStep s = false) :
      StepBehindDrive (drive :: step :: rest)

/-- There are no steps, but for one behind a drive in the path of a file. -/
def StepsFit (kind : SchemeKind) (ss : List (List Char)) : Prop :=
  (∀ s ∈ ss, isStep s = false) ∨ kind = .file ∧ StepBehindDrive ss

/-- The rows of segments that walks find. Only in the path of a file the front is never empty,
unless it stands alone. -/
structure Walked (kind : SchemeKind) (ss : List (List Char)) : Prop where
  ne_nil : ss ≠ []
  plain : ∀ s ∈ ss, PlainSegment kind s
  steps : StepsFit kind ss
  front : kind = .file → ss = [[]] ∨ ss.head? ≠ some []

theorem StepsFit.of_ne_file (h : StepsFit kind ss) (hkind : kind ≠ .file) :
    ∀ s ∈ ss, isStep s = false :=
  h.resolve_right fun hfile => hkind hfile.1

/-- What holds of no break tells that a character is none. -/
theorem not_isBreak_of {P : Char → Prop} {c : Char} (h : P c) (htab : ¬ P '\t') (hline : ¬ P '\n')
    (hreturn : ¬ P '\r') : isBreak c = false := by
  refine Bool.eq_false_iff.mpr fun hbreak => ?_
  simp only [isBreak, Bool.or_eq_true, beq_iff_eq] at hbreak
  rcases hbreak with (rfl | rfl) | rfl
  · exact htab h
  · exact hline h
  · exact hreturn h

theorem not_isBreak_of_controls {c : Char} (h : controls c = false) : isBreak c = false :=
  not_isBreak_of (P := (controls · = false)) h (by decide) (by decide) (by decide)

theorem controls_of_pathSet {c : Char} (h : controls c = true) : pathSet c = true := by
  simp [pathSet, fragmentSet, h]

theorem PlainSegment.clear (h : PlainSegment kind s) : Clear pathSet s :=
  fun c hc => (h c hc).1

theorem PlainSegment.unbroken (h : PlainSegment kind s) : ∀ c ∈ s, isBreak c = false :=
  fun c hc => not_isBreak_of_controls (h.clear.mono (fun _ => controls_of_pathSet) c hc)

theorem plainSegment_nil : PlainSegment kind [] := by simp [PlainSegment]

/-- Encoding puts no end into a segment. -/
theorem plainSegment_encode (h : ∀ c ∈ s, kind.endsSegment c = false) :
    PlainSegment kind (encode pathSet s) := by
  have hescape : ∀ kind : SchemeKind, kind.endsSegment '%' = false ∧
      ∀ n < 16, kind.endsSegment (hexDigit n) = false := by
    intro kind
    cases kind <;> decide
  refine fun c hc => ⟨clear_encode sparesEscapes_pathSet c hc, ?_⟩
  exact forall_mem_encode (fun c hc _ => h c hc) (hescape kind).1 (hescape kind).2 c hc

theorem unbroken_of_forall (h : ∀ c ∈ s, isBreak c = false) : unbroken s = s :=
  List.filter_eq_self.mpr fun c hc => by simp [h c hc]

theorem dropWhile_isBreak (h : ∀ c ∈ s, isBreak c = false) : s.dropWhile isBreak = s := by
  cases s with
  | nil => rfl
  | cons c s => exact List.dropWhile_cons_of_neg (by simp [h c List.mem_cons_self])

theorem brokenDrive?_of_unbroken (h : ∀ c ∈ s, isBreak c = false) : brokenDrive? s = none := by
  rw [brokenDrive?, dropWhile_isBreak h]
  cases s with
  | nil => rfl
  | cons c s =>
      have hs : ∀ d ∈ s, isBreak d = false := fun d hd => h d (List.mem_cons_of_mem c hd)
      dsimp only
      rw [dropWhile_isBreak hs]
      split
      · next b rest =>
        have hb : isBreak b = false := hs b (by simp)
        simp [hb]
      · rfl

/-- The name of a drive is a letter and a colon or a bar. -/
theorem exists_of_isDrive (h : isDrive s = true) :
    ∃ c d, s = [c, d] ∧ c.isAlpha = true ∧ (d = ':' ∨ d = '|') := by
  rw [isDrive.eq_def] at h
  split at h
  · next c d =>
    simp only [Bool.and_eq_true, Bool.or_eq_true, beq_iff_eq] at h
    exact ⟨c, d, rfl, h.1, h.2⟩
  · cases h

theorem isStep_of_alpha {c : Char} (h : c.isAlpha = true) (s : List Char) :
    isStep (c :: s) = false := by
  have hdot : c ≠ '.' := by
    rintro rfl
    exact absurd h (by decide)
  have hpercent : c ≠ '%' := by
    rintro rfl
    exact absurd h (by decide)
  have hnone : afterDot? (c :: s) = none := by
    rw [afterDot?.eq_def]
    split
    · next heq => exact absurd (List.cons.inj heq).1 hdot
    · next heq => exact absurd (List.cons.inj heq).1 hpercent
    · rfl
  simp [isStep, isDot, isDoubleDot, hnone]

theorem isStep_of_isDrive (h : isDrive s = true) : isStep s = false := by
  obtain ⟨c, d, rfl, hc, -⟩ := exists_of_isDrive h
  exact isStep_of_alpha hc [d]

/-- The name of a drive is written with a colon, and is one then. -/
theorem isDrive_written (h : isDrive s = true) : isDrive (s.take 1 ++ [':']) = true := by
  obtain ⟨c, d, rfl, hc, -⟩ := exists_of_isDrive h
  simp [isDrive, hc]

theorem StepsFit.enter (h : StepsFit kind ss) (hs : isStep s = false) :
    StepsFit kind (ss ++ [s]) := by
  have happend : ∀ ts : List (List Char), (∀ t ∈ ts, isStep t = false) →
      ∀ t ∈ ts ++ [s], isStep t = false := by
    intro ts hts t ht
    rcases List.mem_append.mp ht with ht | ht
    · exact hts t ht
    · rwa [List.mem_singleton.mp ht]
  rcases h with h | ⟨hfile, hdrive, hstep, hrest⟩
  · exact .inl (happend ss h)
  · exact .inr ⟨hfile, .intro hdrive hstep (happend _ hrest)⟩

theorem StepsFit.dropLast (h : StepsFit kind ss) : StepsFit kind ss.dropLast := by
  rcases h with h | ⟨hfile, @⟨drive, step, rest, hdrive, hstep, hrest⟩⟩
  · exact .inl fun s hs => h s (List.dropLast_subset ss hs)
  · cases rest with
    | nil =>
        refine .inl fun s hs => ?_
        rw [List.mem_singleton.mp hs]
        exact isStep_of_isDrive hdrive
    | cons r rest =>
        exact .inr ⟨hfile, .intro hdrive hstep fun s hs => hrest s (List.dropLast_subset _ hs)⟩

/-- What is left of the segments behind a drive when the step behind it is taken. The last one is
a place even then. -/
def behindStep : List (List Char) → List (List Char)
  | [] => []
  | s :: ss => if isStep s then (if ss = [] then [[]] else ss) else s :: ss

theorem plainSegment_drive {c : Char} (h : c.isAlpha = true) : PlainSegment kind [c, ':'] := by
  have hletter : ∀ kind : SchemeKind, ∀ n < 128, (Char.ofNat n).isAlpha = true →
      pathSet (Char.ofNat n) = false ∧ kind.endsSegment (Char.ofNat n) = false := by
    intro kind
    cases kind <;> decide
  have hcolon : ∀ kind : SchemeKind, kind.endsSegment ':' = false := by
    intro kind
    cases kind <;> decide
  intro d hd
  simp only [List.mem_cons, List.not_mem_nil, or_false] at hd
  rcases hd with rfl | rfl
  · exact of_ascii (P := fun e => e.isAlpha = true → pathSet e = false ∧ kind.endsSegment e = false)
      (hletter kind) (lt_of_isAlpha h) h
  · exact ⟨by decide, hcolon kind⟩

/-! ## One segment -/

namespace Walk

variable {w : Walk} {isLast : Bool}

/-- What a walk does at a segment: it steps, it begins at a drive, or it enters the segment. -/
theorem take_cases (kind : SchemeKind) (isLast : Bool) (w : Walk) (s : List Char) :
    (isStep s = true ∧ ∃ v, (v = w ∨ v = w.up) ∧
        w.take kind isLast s = if isLast then v.enter [] else v) ∨
      (isStep s = false ∧ (kind = .file ∧ w.above = [] ∧ isDrive s = true) ∧
        w.take kind isLast s = { above := [s.take 1 ++ [':']], fromDrive := true }) ∨
      (isStep s = false ∧ ¬ (kind = .file ∧ w.above = [] ∧ isDrive s = true) ∧
        w.take kind isLast s = w.enter s) := by
  rw [take]
  by_cases hdouble : isDoubleDot s = true
  · rw [if_pos hdouble]
    exact .inl ⟨by simp [isStep, hdouble], w.up, .inr rfl, rfl⟩
  · rw [if_neg hdouble]
    by_cases hdot : isDot s = true
    · rw [if_pos hdot]
      exact .inl ⟨by simp [isStep, hdot], w, .inl rfl, rfl⟩
    · rw [if_neg hdot]
      have hstep : isStep s = false := by simp [isStep, hdouble, hdot]
      by_cases hdrive : kind = .file ∧ w.above = [] ∧ isDrive s = true
      · rw [if_pos hdrive]
        exact .inr (.inl ⟨hstep, hdrive, rfl⟩)
      · rw [if_neg hdrive]
        exact .inr (.inr ⟨hstep, hdrive, rfl⟩)

/-- Without breaks the rule for drives and breaks does not apply. -/
theorem takeBroken_of_unbroken (h : kind ≠ .file ∨ ∀ c ∈ s, isBreak c = false) :
    w.takeBroken kind isLast s = w.take kind isLast (encode pathSet (unbroken s)) := by
  have hnone : (if kind = .file ∧ w.above = [] then brokenDrive? s else none) = none := by
    rcases h with h | h
    · exact if_neg fun hfile => h hfile.1
    · rw [brokenDrive?_of_unbroken h]
      exact ite_self none
  rw [takeBroken, hnone]

theorem takeBroken_of_plain (h : PlainSegment kind s) :
    w.takeBroken kind isLast s = w.take kind isLast s := by
  rw [takeBroken_of_unbroken (.inr h.unbroken), unbroken_of_forall h.unbroken,
    encode_of_clear h.clear]

theorem mem_up (h : s ∈ w.up.above) : s ∈ w.above := by
  rw [up] at h
  split at h
  · exact h
  · exact List.dropLast_subset _ h

/-- What holds of all segments so far and of what is entered next holds of all segments then. -/
theorem forall_mem_take {P : List Char → Prop} (hw : ∀ t ∈ w.above, P t) (hnil : P [])
    (hs : isStep s = false → P s) (hdrive : isDrive s = true → P (s.take 1 ++ [':'])) :
    ∀ t ∈ (w.take kind isLast s).above, P t := by
  have henter : ∀ (v : Walk) (r : List Char), (∀ t ∈ v.above, P t) → P r →
      ∀ t ∈ (v.enter r).above, P t := by
    intro v r hv hr t ht
    rcases List.mem_append.mp ht with ht | ht
    · exact hv t ht
    · rwa [List.mem_singleton.mp ht]
  rcases take_cases kind isLast w s with ⟨-, v, hv, htake⟩ | ⟨-, ⟨-, -, hd⟩, htake⟩ |
    ⟨hstep, -, htake⟩
  · have hall : ∀ t ∈ v.above, P t := by
      rcases hv with rfl | rfl
      · exact hw
      · exact fun t ht => hw t (mem_up ht)
    rw [htake]
    cases isLast
    · exact hall
    · exact henter v [] hall hnil
  · rw [htake]
    intro t ht
    rw [List.mem_singleton.mp ht]
    exact hdrive hd
  · rw [htake]
    exact henter w s hw (hs hstep)

theorem plainSegment_take (hw : ∀ t ∈ w.above, PlainSegment kind t) (hs : PlainSegment kind s) :
    ∀ t ∈ (w.take kind isLast s).above, PlainSegment kind t := by
  refine forall_mem_take hw plainSegment_nil (fun _ => hs) fun hdrive => ?_
  obtain ⟨c, d, rfl, hc, -⟩ := exists_of_isDrive hdrive
  exact plainSegment_drive hc

theorem steps_take (hw : ∀ t ∈ w.above, isStep t = false) :
    ∀ t ∈ (w.take kind isLast s).above, isStep t = false := by
  exact forall_mem_take hw (by decide) id fun hdrive => isStep_of_isDrive (isDrive_written hdrive)

/-- Both parts of a broken drive are pieces of the segment. -/
theorem exists_of_brokenDrive? {drive rest : List Char} (h : brokenDrive? s = some (drive, rest)) :
    (∃ c, c.isAlpha = true ∧ drive = [c, ':']) ∧ ∀ c ∈ rest, c ∈ s := by
  have hsub : ∀ r : List Char, ∀ c ∈ r.dropWhile isBreak, c ∈ r :=
    fun r c hc => (List.dropWhile_sublist isBreak).subset hc
  rw [brokenDrive?] at h
  split at h
  · cases h
  · next c r hr =>
    have hmem : ∀ e ∈ c :: r, e ∈ s := fun e he => hsub s e (hr ▸ he)
    split at h
    · next b q hq =>
      dsimp only at h
      split at h
      · next hcond =>
        cases h
        simp only [Bool.and_eq_true] at hcond
        refine ⟨⟨c, hcond.1.1, rfl⟩, fun e he => ?_⟩
        have hq' : e ∈ ':' :: b :: q := by simp [(List.mem_filter.mp he).1]
        exact hmem e (List.mem_cons_of_mem c (hsub r e (hq ▸ hq')))
      · cases h
    · cases h

theorem plainSegment_takeBroken (hw : ∀ t ∈ w.above, PlainSegment kind t)
    (hs : ∀ c ∈ s, kind.endsSegment c = false) :
    ∀ t ∈ (w.takeBroken kind isLast s).above, PlainSegment kind t := by
  rw [takeBroken]
  split
  · next drive rest hbroken =>
    split at hbroken
    · obtain ⟨⟨c, hc, rfl⟩, hrest⟩ := exists_of_brokenDrive? hbroken
      intro t ht
      rcases List.mem_append.mp ht with ht | ht
      · rcases List.mem_append.mp ht with ht | ht
        · exact hw t ht
        · rw [List.mem_singleton.mp ht]
          exact plainSegment_drive hc
      · rw [List.mem_singleton.mp ht]
        exact plainSegment_encode fun d hd => hs d (hrest d hd)
    · cases hbroken
  · refine plainSegment_take hw (plainSegment_encode fun c hc => hs c ?_)
    exact (List.mem_filter.mp hc).1

theorem stepsFit_up (h : StepsFit kind w.above) : StepsFit kind w.up.above := by
  rw [up]
  split
  · exact h
  · exact h.dropLast

/-- A step that is kept stands behind a drive. -/
theorem stepsFit_takeBroken (h : StepsFit kind w.above) :
    StepsFit kind (w.takeBroken kind isLast s).above := by
  rw [takeBroken]
  split
  · next drive rest hbroken =>
    split at hbroken
    · next hfront =>
      obtain ⟨⟨c, hc, rfl⟩, -⟩ := exists_of_brokenDrive? hbroken
      show StepsFit kind (w.above ++ [[c, ':']] ++ [encode pathSet rest])
      rw [hfront.2]
      by_cases hstep : isStep (encode pathSet rest) = true
      · exact .inr ⟨hfront.1, .intro (by simp [isDrive, hc]) hstep (by simp)⟩
      · refine StepsFit.enter (.inl fun t ht => ?_) (Bool.eq_false_iff.mpr hstep)
        rw [List.mem_singleton.mp ht]
        exact isStep_of_alpha hc [':']
    · cases hbroken
  · -- whatever the segment reads, one that is entered is no step
    generalize encode pathSet (unbroken s) = s
    rcases take_cases kind isLast w s with ⟨-, v, hv, htake⟩ | ⟨-, ⟨-, -, hdrive⟩, htake⟩ |
      ⟨hstep, -, htake⟩
    · have hfit : StepsFit kind v.above := by
        rcases hv with rfl | rfl
        · exact h
        · exact stepsFit_up h
      rw [htake]
      cases isLast
      · exact hfit
      · exact hfit.enter (by decide)
    · rw [htake]
      refine .inl fun t ht => ?_
      rw [List.mem_singleton.mp ht]
      exact isStep_of_isDrive (isDrive_written hdrive)
    · rw [htake]
      exact h.enter hstep

theorem takeBroken_above_ne_nil : (w.takeBroken kind true s).above ≠ [] := by
  have henter : ∀ (v : Walk) (r : List Char), (v.enter r).above ≠ [] := fun v r => by simp [enter]
  rw [takeBroken]
  split
  · exact henter _ _
  · rcases take_cases kind true w (encode pathSet (unbroken s)) with ⟨-, v, -, htake⟩ |
      ⟨-, -, htake⟩ | ⟨-, -, htake⟩
    · rw [htake]
      exact henter v []
    · simp [htake]
    · rw [htake]
      exact henter w _

/-! ## Rows of segments -/

theorem takeAll_cons (h : ss ≠ []) :
    w.takeAll kind (s :: ss) = (w.takeBroken kind false s).takeAll kind ss := by
  cases ss with
  | nil => exact absurd rfl h
  | cons t ts => rfl

/-- What one segment keeps, with the last one or before it, a row of segments keeps. -/
theorem takeAll_induction {P : Walk → Prop}
    (hstep : ∀ w isLast, ∀ s ∈ ss, P w → P (w.takeBroken kind isLast s)) (hw : P w) :
    P (w.takeAll kind ss) := by
  induction ss generalizing w with
  | nil => exact hw
  | cons s ss ih =>
      have hs : ∀ isLast, P (w.takeBroken kind isLast s) :=
        fun isLast => hstep w isLast s List.mem_cons_self hw
      by_cases hss : ss = []
      · rw [hss]
        exact hs true
      · rw [takeAll_cons hss]
        exact ih (fun w isLast t ht => hstep w isLast t (List.mem_cons_of_mem s ht)) (hs false)

/-- A walk along a row of segments ends with a walk along the last ones. -/
theorem exists_takeAll_append (hts : ts ≠ []) :
    ∃ v : Walk, w.takeAll kind (ss ++ ts) = v.takeAll kind ts := by
  induction ss generalizing w with
  | nil => exact ⟨w, rfl⟩
  | cons s ss ih =>
      rw [List.cons_append, takeAll_cons (by simp [hts])]
      exact ih

theorem takeAll_above_ne_nil (h : ss ≠ []) : (w.takeAll kind ss).above ≠ [] := by
  obtain ⟨front, last, rfl⟩ : ∃ front last, ss = front ++ [last] :=
    ⟨_, _, (List.dropLast_concat_getLast h).symm⟩
  obtain ⟨v, hv⟩ : ∃ v : Walk, w.takeAll kind (front ++ [last]) = v.takeAll kind [last] :=
    exists_takeAll_append (List.cons_ne_nil last [])
  rw [hv]
  exact takeBroken_above_ne_nil

/-- Segments that stand as they are, and are neither steps nor a drive in front, are entered one
by one. -/
theorem takeAll_of_plain (hplain : ∀ s ∈ ss, PlainSegment kind s)
    (hstep : ∀ s ∈ ss, isStep s = false)
    (hfront : kind = .file → w.above = [] → ss.head?.any isDrive = false) :
    w.takeAll kind ss = { w with above := w.above ++ ss } := by
  -- only at the start a drive is told from other segments, so behind the front nothing is asked
  induction ss generalizing w with
  | nil => simp [takeAll]
  | cons s ss ih =>
      have htake : ∀ isLast, w.takeBroken kind isLast s = w.enter s := by
        intro isLast
        rw [takeBroken_of_plain (hplain s List.mem_cons_self)]
        rcases take_cases kind isLast w s with ⟨hs, -⟩ | ⟨-, ⟨hfile, habove, hdrive⟩, -⟩ | ⟨-, -, h⟩
        · rw [hstep s List.mem_cons_self] at hs
          cases hs
        · have := hfront hfile habove
          simp [hdrive] at this
        · exact h
      by_cases hss : ss = []
      · rw [hss]
        exact htake true
      · rw [takeAll_cons hss, htake]
        have hnext : (w.enter s).above ≠ [] := by simp [enter]
        rw [ih (fun t ht => hplain t (List.mem_cons_of_mem s ht))
          (fun t ht => hstep t (List.mem_cons_of_mem s ht)) fun _ h => absurd h hnext]
        simp [enter]

/-! ## Texts -/

variable {text : List Char}

theorem plainSegment_along : ∀ s ∈ (along kind text).above, PlainSegment kind s := by
  refine takeAll_induction (P := fun w => ∀ s ∈ w.above, PlainSegment kind s) ?_ (by simp)
  exact fun w isLast s hs hw => plainSegment_takeBroken hw fun c hc => (Text.mem_split hs c hc).2

theorem along_above_ne_nil : (along kind text).above ≠ [] :=
  takeAll_above_ne_nil (Text.split_ne_nil _ _)

/-- A walk without breaks finds no steps. -/
theorem steps_along (h : ∀ c ∈ text, isBreak c = false) :
    ∀ s ∈ (along kind text).above, isStep s = false := by
  refine takeAll_induction (P := fun w => ∀ s ∈ w.above, isStep s = false) ?_ (by simp)
  intro w isLast s hs hw
  rw [takeBroken_of_unbroken (.inr fun c hc => h c (Text.mem_split hs c hc).1)]
  exact steps_take hw

theorem stepsFit_along : StepsFit kind (along kind text).above :=
  takeAll_induction (P := fun w => StepsFit kind w.above) (fun _ _ _ _ => stepsFit_takeBroken)
    (.inl (by simp))

/-- The path of a walk, with an empty front left out if it is that of a file. -/
theorem path_file (w : Walk) :
    (w.above.dropWhile List.isEmpty = [] ∧ w.path .file = .rooted [[]]) ∨
      ∃ s ss, w.above.dropWhile List.isEmpty = s :: ss ∧ s ≠ [] ∧
        w.path .file = .rooted (s :: ss) := by
  rw [path, if_pos rfl]
  cases h : w.above.dropWhile List.isEmpty with
  | nil => exact .inl ⟨rfl, rfl⟩
  | cons s ss =>
      refine .inr ⟨s, ss, rfl, ?_, rfl⟩
      rintro rfl
      have := List.head_dropWhile_not List.isEmpty (l := w.above) (by simp [h])
      simp [h] at this

theorem path_of_ne_file (h : kind ≠ .file) (w : Walk) : w.path kind = .rooted w.above := by
  rw [path, if_neg h]

theorem path_of_stepBehindDrive (h : StepBehindDrive w.above) :
    w.path .file = .rooted w.above := by
  obtain ⟨above, fromDrive⟩ := w
  obtain ⟨hdrive, -, -⟩ := h
  obtain ⟨c, d, rfl, -, -⟩ := exists_of_isDrive hdrive
  rfl

/-- The segments of the path are those of the walk, or there is only an empty one. -/
theorem exists_path (kind : SchemeKind) (w : Walk) :
    ∃ ss, w.path kind = .rooted ss ∧ ∀ s ∈ ss, s = [] ∨ s ∈ w.above := by
  by_cases hfile : kind = .file
  · subst hfile
    rcases path_file w with ⟨-, hpath⟩ | ⟨s, ss, hdrop, -, hpath⟩
    · exact ⟨_, hpath, fun s hs => .inl (List.mem_singleton.mp hs)⟩
    · exact ⟨_, hpath, fun t ht => .inr ((List.dropWhile_sublist _).subset (hdrop ▸ ht))⟩
  · exact ⟨_, path_of_ne_file hfile w, fun s hs => .inr hs⟩

theorem walked_along (kind : SchemeKind) (text : List Char) :
    ∃ ss, (along kind text).path kind = .rooted ss ∧ Walked kind ss := by
  obtain ⟨ss, hpath, hmem⟩ := exists_path kind (along kind text)
  refine ⟨ss, hpath, ?_, ?_, ?_, ?_⟩
  · rintro rfl
    by_cases hfile : kind = .file
    · subst hfile
      rcases path_file (along .file text) with ⟨-, h⟩ | ⟨s, ss, -, -, h⟩ <;> simp [h] at hpath
    · rw [path_of_ne_file hfile] at hpath
      exact along_above_ne_nil (Path.rooted.inj hpath)
  · intro s hs
    rcases hmem s hs with rfl | hs
    · exact plainSegment_nil
    · exact plainSegment_along s hs
  · have hfit : StepsFit kind (along kind text).above := stepsFit_along
    rcases hfit with hall | ⟨rfl, hbehind⟩
    · refine .inl fun s hs => ?_
      rcases hmem s hs with rfl | hs
      · decide
      · exact hall s hs
    · rw [path_of_stepBehindDrive hbehind] at hpath
      rw [← Path.rooted.inj hpath]
      exact .inr ⟨rfl, hbehind⟩
  · rintro rfl
    rcases path_file (along .file text) with ⟨-, h⟩ | ⟨s, ts, -, hne, h⟩
    · exact .inl (Path.rooted.inj (hpath.symm.trans h))
    · rw [Path.rooted.inj (hpath.symm.trans h)]
      exact .inr (by simpa using hne)

/-- A path without breaks in its text has no steps. -/
theorem steps_path_along (h : ∀ c ∈ text, isBreak c = false) {ss : List (List Char)}
    (hpath : (along kind text).path kind = .rooted ss) : ∀ s ∈ ss, isStep s = false := by
  obtain ⟨ts, hts, hmem⟩ := exists_path kind (along kind text)
  cases hpath.symm.trans hts
  intro s hs
  rcases hmem s hs with rfl | hs
  · decide
  · exact steps_along h s hs

/-! ## Texts of paths -/

theorem text_rooted (h : ss ≠ []) : (Path.rooted ss).text = '/' :: ['/'].intercalate ss := by
  induction ss with
  | nil => exact absurd rfl h
  | cons s ss ih =>
      by_cases hss : ss = []
      · simp [hss, Path.text]
      · rw [List.intercalate_cons_of_ne_nil hss, List.append_assoc, List.singleton_append, ← ih hss]
        rfl

theorem split_text (h : Walked kind ss) :
    Text.split kind.endsSegment (Path.rooted ss).text.tail = ss := by
  have hslash : kind.endsSegment '/' = true := by simp [SchemeKind.endsSegment]
  rw [text_rooted h.ne_nil]
  exact Text.split_intercalate hslash h.ne_nil fun s hs c hc => (h.plain s hs c hc).2

/-- A walk along the text of a path finds its segments, if none of them is a step and the front
is no drive. -/
theorem along_text (h : Walked kind ss) (hstep : ∀ s ∈ ss, isStep s = false)
    (hfront : kind = .file → ss.head?.any isDrive = false) :
    along kind (Path.rooted ss).text.tail = { above := ss } := by
  rw [along, split_text h]
  exact takeAll_of_plain h.plain hstep fun hfile _ => hfront hfile

theorem path_of_walked (h : Walked kind ss) : path kind { above := ss } = .rooted ss := by
  by_cases hfile : kind = .file
  · subst hfile
    rcases h.front rfl with rfl | hfront
    · rfl
    · cases ss with
      | nil => exact absurd rfl h.ne_nil
      | cons s ss =>
          have hs : ¬ s.isEmpty = true := fun hnil => hfront (by simp_all)
          rw [path, if_pos rfl]
          dsimp only
          rw [List.dropWhile_cons_of_neg hs]
  · exact path_of_ne_file hfile _

/-- A dot in front of a path that has no file changes nothing. -/
theorem along_dot (h : kind ≠ .file) (text : List Char) :
    along kind ('.' :: '/' :: text) = along kind text := by
  have hsplit : Text.split kind.endsSegment ('.' :: '/' :: text) =
      ['.'] :: Text.split kind.endsSegment text := by
    have hdot : kind.endsSegment '.' = false := by cases kind <;> decide
    have hslash : kind.endsSegment '/' = true := by simp [SchemeKind.endsSegment]
    rw [Text.split_cons, Text.split_cons, if_neg (by simp [hdot]), if_pos hslash]
  rw [along, hsplit, takeAll_cons (Text.split_ne_nil _ _), takeBroken_of_unbroken (.inl h)]
  rfl

theorem split_text_file (h : Walked .file ss) :
    Text.split SchemeKind.file.endsSegment (Path.rooted ss).text = [] :: ss := by
  have hsplit := split_text h
  rw [text_rooted h.ne_nil] at hsplit ⊢
  rw [Text.split_cons, if_pos (by decide)]
  exact congrArg ([] :: ·) hsplit

/-- With its root in front the path of a file is found again, whatever its front is. -/
theorem path_along_text_file (h : Walked .file ss) (hstep : ∀ s ∈ ss, isStep s = false) :
    (along .file (Path.rooted ss).text).path .file = .rooted ss := by
  have halong : along .file (Path.rooted ss).text = { above := [] :: ss } := by
    rw [along, split_text_file h]
    refine takeAll_of_plain ?_ ?_ fun _ _ => rfl
    · simpa [plainSegment_nil] using h.plain
    · simpa [show isStep [] = false from rfl] using hstep
  rw [halong, ← path_of_walked h]
  rfl

/-! ## Behind drives -/

theorem startsWithDrive_of_isDrive (h : isDrive s = true) : startsWithDrive s = true := by
  obtain ⟨c, d, rfl, -, -⟩ := exists_of_isDrive h
  simp [startsWithDrive, h]

/-- A step behind a drive stays there; all other segments are entered. -/
theorem takeAll_behindDrive (hw : w.above.getLast?.any startsWithDrive = true)
    (hplain : ∀ s ∈ ss, PlainSegment kind s) (hsteps : ∀ s ∈ ss.tail, isStep s = false) :
    w.takeAll kind ss = { w with above := w.above ++ behindStep ss } := by
  have hne : ∀ {P : Prop}, w.above = [] → P := by
    intro P hnil
    rw [hnil] at hw
    cases hw
  cases ss with
  | nil => simp [takeAll, behindStep]
  | cons s ss =>
      by_cases hstep : isStep s = true
      · -- no step goes above a drive
        have hup : w.up = w := if_pos hw
        have htake : ∀ isLast, w.takeBroken kind isLast s = if isLast then w.enter [] else w := by
          intro isLast
          rw [takeBroken_of_plain (hplain s List.mem_cons_self)]
          rcases take_cases kind isLast w s with ⟨-, v, hv, htake⟩ | ⟨hnot, -⟩ | ⟨hnot, -⟩
          · rw [hup, or_self] at hv
            rw [htake, hv]
          · rw [hstep] at hnot
            cases hnot
          · rw [hstep] at hnot
            cases hnot
        rw [behindStep, if_pos hstep]
        by_cases hss : ss = []
        · rw [hss, if_pos rfl]
          exact htake true
        · rw [takeAll_cons hss, htake, if_neg hss]
          exact takeAll_of_plain (fun t ht => hplain t (List.mem_cons_of_mem s ht)) hsteps
            fun _ => hne
      · rw [behindStep, if_neg hstep]
        refine takeAll_of_plain hplain (fun t ht => ?_) fun _ => hne
        rcases List.mem_cons.mp ht with rfl | ht
        · exact Bool.eq_false_iff.mpr hstep
        · exact hsteps t ht

section Drive
variable {drive : List Char} (h : Walked .file (drive :: ss)) (hdrive : isDrive drive = true)
include h

theorem steps_behindDrive : ∀ s ∈ ss.tail, isStep s = false := by
  rcases h.steps with hall | ⟨-, -, -, hrest⟩
  · exact fun s hs => hall s (List.mem_cons_of_mem drive (List.mem_of_mem_tail hs))
  · exact hrest

include hdrive

/-- A drive in front of the path of a file is met again, and written with a colon. -/
theorem along_text_of_drive :
    along .file (Path.rooted (drive :: ss)).text.tail =
      { above := (drive.take 1 ++ [':']) :: behindStep ss, fromDrive := true } := by
  have htake : ∀ isLast, takeBroken .file isLast {} drive =
      { above := [drive.take 1 ++ [':']], fromDrive := true } := by
    intro isLast
    rw [takeBroken_of_plain (h.plain drive List.mem_cons_self)]
    rcases take_cases .file isLast {} drive with ⟨hstep, -⟩ | ⟨-, -, htake⟩ | ⟨-, hnot, -⟩
    · rw [isStep_of_isDrive hdrive] at hstep
      cases hstep
    · exact htake
    · exact absurd ⟨rfl, rfl, hdrive⟩ hnot
  have hwritten := startsWithDrive_of_isDrive (isDrive_written hdrive)
  rw [along, split_text h]
  by_cases hss : ss = []
  · rw [hss]
    exact htake true
  · rw [takeAll_cons hss, htake, takeAll_behindDrive (by simp [hwritten])
      (fun s hs => h.plain s (List.mem_cons_of_mem drive hs)) (steps_behindDrive h)]
    rfl

/-- With its root in front the drive is found as it is. -/
theorem path_along_text_of_drive :
    (along .file (Path.rooted (drive :: ss)).text).path .file =
      .rooted (drive :: behindStep ss) := by
  have henter : ∀ isLast, takeBroken .file isLast { above := [[]] } drive =
      { above := [[], drive] } := by
    intro isLast
    rw [takeBroken_of_plain (h.plain drive List.mem_cons_self)]
    rcases take_cases .file isLast { above := [[]] } drive with ⟨hstep, -⟩ | ⟨-, ⟨-, hnil, -⟩, -⟩ |
      ⟨-, -, htake⟩
    · rw [isStep_of_isDrive hdrive] at hstep
      cases hstep
    · cases hnil
    · exact htake
  have halong : along .file (Path.rooted (drive :: ss)).text =
      { above := [[], drive] ++ behindStep ss } := by
    rw [along, split_text_file h, takeAll_cons (List.cons_ne_nil drive ss)]
    show takeAll .file { above := [[]] } (drive :: ss) = _
    by_cases hss : ss = []
    · rw [hss]
      exact henter true
    · rw [takeAll_cons hss, henter, takeAll_behindDrive
        (by simp [startsWithDrive_of_isDrive hdrive])
        (fun s hs => h.plain s (List.mem_cons_of_mem drive hs)) (steps_behindDrive h)]
  obtain ⟨c, d, rfl, -, -⟩ := exists_of_isDrive hdrive
  rw [halong]
  rfl

end Drive

/-- Last segments that stand as they are end the path. -/
theorem exists_path_append (hsplit : Text.split kind.endsSegment text = ss ++ ts)
    (hts : ts ≠ []) (hplain : ∀ s ∈ ts, PlainSegment kind s) (hstep : ∀ s ∈ ts, isStep s = false)
    (hdrive : ts.head?.any isDrive = false) (hfront : ts.head? ≠ some []) :
    ∃ front, (along kind text).path kind = .rooted (front ++ ts) := by
  obtain ⟨v, hv⟩ : ∃ v : Walk, takeAll kind {} (ss ++ ts) = v.takeAll kind ts :=
    exists_takeAll_append hts
  rw [takeAll_of_plain hplain hstep fun _ _ => hdrive] at hv
  have habove : (along kind text).above = v.above ++ ts := by rw [along, hsplit, hv]
  by_cases hfile : kind = .file
  · subst hfile
    have hdropts : ts.dropWhile List.isEmpty = ts := by
      cases ts with
      | nil => rfl
      | cons t ts => exact List.dropWhile_cons_of_neg fun hnil => hfront (by simp_all)
    have hdrop : ∃ front, (along .file text).above.dropWhile List.isEmpty = front ++ ts := by
      rw [habove, List.dropWhile_append, hdropts]
      split
      · exact ⟨[], rfl⟩
      · exact ⟨_, rfl⟩
    obtain ⟨front, hfront⟩ := hdrop
    refine ⟨front, ?_⟩
    rcases path_file (along .file text) with ⟨hnil, -⟩ | ⟨s, rest, hcons, -, hpath⟩
    · simp [hnil, hts] at hfront
    · rw [hpath, ← hfront, hcons]
  · exact ⟨v.above, by rw [path_of_ne_file hfile, habove]⟩

end Walk

end Url

end Nullness
