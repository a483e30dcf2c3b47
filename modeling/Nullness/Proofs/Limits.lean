import Nullness.Proofs.Trees

/-!
# What is too much for a reader

A reader of any value has two limits: how many containers it opens one within the other, and
how great a double may be. A text that spells a value but goes beyond a limit is given up at the
first place where it does.

- `Json.Reader.WithinLimits`: what a text spells is not too much.
- `Json.Reader.Exceeds`: a reader gives up at a limit.
- `Json.Reader.exceeds_number`: so it does at a number that is out of range.
- `Json.Reader.tree_settles`: what a text spells is within the limits, or the reader of any
  value gives it up.
-/

namespace Nullness

namespace Json

namespace Reader

variable {α β σ : Type}

/-- The fault is that a limit is exceeded. -/
def AtLimit (e : Fault) : Prop :=
  e.cause = .tooDeep ∨ e.cause = .numberOutOfRange

/-- `r` gives up the text `s` at a limit. -/
def Exceeds (r : Reader α) (s : List Char) : Prop :=
  ∃ e, r s = .error e ∧ AtLimit e

/-! ## Readers in a row -/

section Basic
variable {r : Reader α} {f : α → Reader β} {s t : List Char} {a : α}

theorem Exceeds.not_takes (h : r.Exceeds s) : ¬ r.Takes s a t := by
  rintro ⟨le, htakes⟩
  obtain ⟨e, herror, -⟩ := h
  cases htakes.symm.trans herror

theorem Exceeds.bind (h : r.Exceeds s) : (r >>= f).Exceeds s := by
  obtain ⟨e, hr, he⟩ := h
  refine ⟨e, ?_, he⟩
  simp only [Bind.bind, hr]

/-- What comes behind a reader is given up, and so are both. -/
theorem Takes.exceeds (h : r.Takes s a t) (hf : (f a).Exceeds t) : (r >>= f).Exceeds s := by
  obtain ⟨le, hr⟩ := h
  obtain ⟨e, hf, he⟩ := hf
  refine ⟨e, ?_, he⟩
  simp only [Bind.bind, hr, hf]

theorem Exceeds.within {seg : Segment} (h : r.Exceeds s) : (r.within seg).Exceeds s := by
  obtain ⟨e, hr, he⟩ := h
  refine ⟨e.within seg, ?_, he⟩
  rw [Reader.within, hr]

end Basic

/-! ## Loops -/

section Loops
variable {step : Step σ β} {state state' : σ} {s t : List Char} {e : Fault}

/-- How much text a loop was started with does not matter for its fault. -/
theorem loopFrom_error {m n : Nat} {hm : s.length ≤ m} (hn : s.length ≤ n)
    (h : loopFrom step m state s hm = .error e) : loopFrom step n state s hn = .error e := by
  induction hk : s.length using Nat.strong_induction_on generalizing state s with
  | _ k ih =>
      rw [loopFrom] at h ⊢
      split at h
      · cases h
        rfl
      · cases h
      · next lt _ => exact ih _ (hk ▸ lt) _ h rfl

theorem exceeds_loop_stop (h : step state s = .error e) (he : AtLimit e) :
    (loop step state).Exceeds s := by
  refine ⟨e, ?_, he⟩
  rw [loop, loopFrom, h]

theorem exceeds_loop_again {lt : t.length < s.length}
    (h : step state s = .ok (.again state' t lt)) (ht : (loop step state').Exceeds t) :
    (loop step state).Exceeds s := by
  obtain ⟨e, ht, he⟩ := ht
  refine ⟨e, ?_, he⟩
  rw [loop, loopFrom, h]
  exact loopFrom_error _ ht

end Loops

/-! ## Numbers -/

/-- **Numbers out of range.** Such a number is given up. -/
theorem exceeds_number {l : Numeral} {t : List Char} (h : l.OutOfRange) (ht : Breaks t) :
    number.Exceeds (l.text ++ t) := by
  obtain ⟨hint, unread, hdouble⟩ := h
  refine (takes_numberParts l ht).exceeds ?_
  rw [Numeral.integer?_parts_eq_none hint, hdouble]
  exact ⟨_, rfl, Or.inr rfl⟩

theorem exceeds_scalar {l : Numeral} {t : List Char} (h : l.OutOfRange) (ht : Breaks t) :
    scalar.Exceeds (l.text ++ t) := by
  have hrough : RoughSpelling (.num (.int 0)) l.text := .num (Or.inl h)
  obtain ⟨c, u, hcu, hc⟩ := exists_begins hrough
  have hnumber : (do return .num (← number) : Reader Json).Exceeds (l.text ++ t) :=
    (exceeds_number h ht).bind
  rw [hcu, List.cons_append] at hnumber ⊢
  rw [Exceeds, scalar_of_begins hc]
  exact hnumber

/-! ## Containers -/

/-- What the text `s` spells as `j` is not too much: no number is out of range, and containers
stand one within the other `levels` times at most. -/
structure WithinLimits (levels : Nat) (j : Json) (s : List Char) : Prop where
  spelling : Spelling j s
  depth : j.depth ≤ levels

/-- However `j` is written, it is within the limits, or the reader of any value gives it up. -/
def Settles (levels : Nat) (j : Json) : Prop :=
  ∀ ⦃b s t : List Char⦄, Blank b → RoughSpelling j s → Breaks t →
    WithinLimits levels j s ∨ (tree levels).Exceeds (b ++ (s ++ t))

section Elements
variable {element : Nat → Reader α} {acc : Array α} {levels : Nat} {es : List Json}
variable {s t : List Char}

theorem elementStep_exceeds (h : (nextValue .list false).Takes s true t)
    (he : (element acc.size).Exceeds t) :
    ∃ e, elementStep element acc s = .error e ∧ AtLimit e := by
  obtain ⟨le, h⟩ := h
  have hwithin : ((element acc.size).within (.index acc.size)).Exceeds t := he.within
  obtain ⟨e, herror, he⟩ := hwithin
  refine ⟨e, ?_, he⟩
  unfold elementStep
  split
  · next h' => cases h.symm.trans h'
  · next h' => cases h.symm.trans h'
  · next h' =>
    cases h.symm.trans h'
    rw [herror]

/-- Behind an element, all elements are within the limits, or one of them is given up. -/
theorem elementLoop_settles (h : ∀ e ∈ es, Settles levels e)
    (hs : MoreElementsBy Numeral.DenotesRoughly es s) (acc : Array Json) (t : List Char) :
    (MoreElements es s ∧ ∀ e ∈ es, e.depth ≤ levels) ∨
      (loop (elementStep fun _ => tree levels) acc).Exceeds (s ++ t) := by
  induction es generalizing s acc with
  | nil =>
      obtain ⟨hb⟩ := hs
      exact Or.inl ⟨.nil hb, nofun⟩
  | cons e es ih =>
      obtain ⟨he, hes⟩ := List.forall_mem_cons.mp h
      cases hs with
      | @cons _ _ b b' s₁ s₂ hb hb' hspell hmore =>
          simp only [List.append_assoc, List.cons_append]
          have hnext := takes_nextValue_more hb hb' (.of_spelling hspell (s₂ ++ t))
          have hbreaks := breaks_moreElements hmore t
          rcases he (b := []) nofun hspell hbreaks with ⟨hread, hdepth⟩ | hexceeds
          · have helement := reads_tree hdepth (b := []) nofun hread hbreaks
            obtain ⟨lt, hstep⟩ : ∃ lt, elementStep (fun _ => tree levels) acc _ =
              .ok (.again (acc.push e) _ lt) := elementStep_again hnext helement
            rcases ih hes hmore (acc.push e) with ⟨hrest, hdepths⟩ | hexceeds
            · exact Or.inl ⟨.cons hb hb' hread hrest, List.forall_mem_cons.mpr ⟨hdepth, hdepths⟩⟩
            · exact Or.inr (exceeds_loop_again hstep hexceeds)
          · obtain ⟨e, hstep, he⟩ : ∃ e, elementStep (fun _ => tree levels) acc _ = .error e ∧
              AtLimit e := elementStep_exceeds hnext hexceeds
            exact Or.inr (exceeds_loop_stop hstep he)

theorem elements_settle (h : ∀ e ∈ es, Settles levels e)
    (hs : ElementsBy Numeral.DenotesRoughly es s) (t : List Char) :
    (Elements es s ∧ ∀ e ∈ es, e.depth ≤ levels) ∨
      (elements fun _ => tree levels).Exceeds (s ++ t) := by
  cases hs with
  | nil hb => exact Or.inl ⟨.nil hb, nofun⟩
  | @cons e es b s₁ s₂ hb hspell hmore =>
      obtain ⟨he, hes⟩ := List.forall_mem_cons.mp h
      simp only [List.append_assoc]
      have hnext := takes_nextValue_first hb (.of_spelling hspell (s₂ ++ t))
      have hbreaks := breaks_moreElements hmore t
      rcases he (b := []) nofun hspell hbreaks with ⟨hread, hdepth⟩ | hexceeds
      · have helement := reads_tree hdepth (b := []) nofun hread hbreaks
        rcases elementLoop_settles hes hmore #[e] t with ⟨hrest, hdepths⟩ | hexceeds
        · exact Or.inl ⟨.cons hb hread hrest, List.forall_mem_cons.mpr ⟨hdepth, hdepths⟩⟩
        · exact Or.inr (hnext.exceeds (helement.within.exceeds hexceeds))
      · exact Or.inr (hnext.exceeds hexceeds.within.bind)

end Elements

section Entries
variable {entry : String → σ → Reader (σ ⊕ β)} {finish : σ → β} {d : σ} {first : Bool}
variable {levels : Nat} {es : List (String × Json)} {k : String} {s t : List Char}

theorem entryStep_exceeds (h : (nextKey first).Takes s (some k) t) (he : (entry k d).Exceeds t) :
    ∃ e, entryStep entry finish (first, d) s = .error e ∧ AtLimit e := by
  obtain ⟨le, h⟩ := h
  obtain ⟨e, herror, he⟩ := he
  refine ⟨e, ?_, he⟩
  unfold entryStep
  dsimp only
  split
  · next h' => cases h.symm.trans h'
  · next h' => cases h.symm.trans h'
  · next h' =>
    cases h.symm.trans h'
    rw [herror]

/-- An entry of an object, from its colon on: its value is within the limits, and then it is read,
or else the value is given up. -/
theorem treeEntry_settles {v : Json} (h : Settles levels v) {b b' : List Char} (hb : Blank b)
    (hb' : Blank b') (hs : RoughSpelling v s) (ht : Breaks t) (k : String)
    (acc : Array (String × Json)) :
    (Spelling v s ∧ v.depth ≤ levels ∧ (treeEntry (tree levels) k acc).Takes
        (b ++ ':' :: (b' ++ (s ++ t))) (.inl (acc.push (k, v))) t) ∨
      (treeEntry (tree levels) k acc).Exceeds (b ++ ':' :: (b' ++ (s ++ t))) := by
  have hcolon := takes_colon hb (b' ++ (s ++ t))
  rcases h hb' hs ht with ⟨hread, hdepth⟩ | hexceeds
  · have hvalue := reads_tree hdepth hb' hread ht
    exact Or.inl ⟨hread, hdepth, hcolon.bind (hvalue.within.bind (takes_pure _ t))⟩
  · exact Or.inr (hcolon.exceeds hexceeds.within.bind)

theorem entryLoop_settles {finish : Array (String × Json) → Json}
    (h : ∀ e ∈ es, Settles levels e.2) (hs : MoreEntriesBy Numeral.DenotesRoughly es s)
    (acc : Array (String × Json)) (t : List Char) :
    (MoreEntries es s ∧ ∀ e ∈ es, e.2.depth ≤ levels) ∨
      (loop (entryStep (treeEntry (tree levels)) finish) (false, acc)).Exceeds (s ++ t) := by
  induction es generalizing s acc with
  | nil =>
      obtain ⟨hb⟩ := hs
      exact Or.inl ⟨.nil hb, nofun⟩
  | cons e es ih =>
      obtain ⟨he, hes⟩ := List.forall_mem_cons.mp h
      cases hs with
      | @cons k v _ a b l b' b'' s₁ s₂ ha hb hk hb' hb'' hspell hmore =>
          simp only [List.append_assoc, List.cons_append]
          have hnext := takes_nextValue_more ha hb
            (.of_literal hk (b' ++ ':' :: (b'' ++ (s₁ ++ (s₂ ++ t)))))
          have hkey := takes_nextKey hnext hk
          rcases treeEntry_settles he hb' hb'' hspell (breaks_moreEntries hmore t) k acc with
            ⟨hread, hdepth, hentry⟩ | hexceeds
          · obtain ⟨lt, hstep⟩ : ∃ lt, entryStep (treeEntry (tree levels)) finish (false, acc) _ =
              .ok (.again (false, acc.push (k, v)) _ lt) := entryStep_again hkey hentry
            rcases ih hes hmore (acc.push (k, v)) with ⟨hrest, hdepths⟩ | hexceeds
            · exact Or.inl ⟨.cons ha hb hk hb' hb'' hread hrest,
                List.forall_mem_cons.mpr ⟨hdepth, hdepths⟩⟩
            · exact Or.inr (exceeds_loop_again hstep hexceeds)
          · obtain ⟨e, hstep, he⟩ : ∃ e, entryStep (treeEntry (tree levels)) finish (false, acc) _ =
              .error e ∧ AtLimit e := entryStep_exceeds hkey hexceeds
            exact Or.inr (exceeds_loop_stop hstep he)

theorem entries_settle {finish : Array (String × Json) → Json}
    (h : ∀ e ∈ es, Settles levels e.2) (hs : EntriesBy Numeral.DenotesRoughly es s)
    (t : List Char) :
    (Entries es s ∧ ∀ e ∈ es, e.2.depth ≤ levels) ∨
      (entries (treeEntry (tree levels)) finish #[]).Exceeds (s ++ t) := by
  cases hs with
  | nil hb => exact Or.inl ⟨.nil hb, nofun⟩
  | @cons k v es b l b' b'' s₁ s₂ hb hk hb' hb'' hspell hmore =>
      obtain ⟨he, hes⟩ := List.forall_mem_cons.mp h
      simp only [List.append_assoc, List.cons_append]
      have hnext := takes_nextValue_first hb
        (.of_literal hk (b' ++ ':' :: (b'' ++ (s₁ ++ (s₂ ++ t)))))
      have hkey := takes_nextKey hnext hk
      rcases treeEntry_settles he hb' hb'' hspell (breaks_moreEntries hmore t) k #[] with
        ⟨hread, hdepth, hentry⟩ | hexceeds
      · obtain ⟨lt, hstep⟩ : ∃ lt, entryStep (treeEntry (tree levels)) finish (true, #[]) _ =
          .ok (.again (false, #[].push (k, v)) _ lt) := entryStep_again hkey hentry
        rcases entryLoop_settles hes hmore _ t with ⟨hrest, hdepths⟩ | hexceeds
        · exact Or.inl ⟨.cons hb hk hb' hb'' hread hrest,
            List.forall_mem_cons.mpr ⟨hdepth, hdepths⟩⟩
        · exact Or.inr (exceeds_loop_again hstep hexceeds)
      · obtain ⟨e, hstep, he⟩ : ∃ e, entryStep (treeEntry (tree levels)) finish (true, #[]) _ =
          .error e ∧ AtLimit e := entryStep_exceeds hkey hexceeds
        exact Or.inr (exceeds_loop_stop hstep he)

end Entries

/-! ## Any value -/

section Tree
variable {levels : Nat} {j : Json}

/-- No container is opened where none may be. -/
theorem exceeds_tree_zero {c : Char} (hc : c = '[' ∨ c = '{') {b : List Char} (hb : Blank b)
    (s : List Char) : (tree 0).Exceeds (b ++ c :: s) := by
  have hsolid : Solid (c :: s) := solid_cons (by rcases hc with rfl | rfl <;> decide) s
  rw [tree.eq_def]
  refine (takes_blanks hb hsolid).exceeds ((takes_peek _).exceeds ?_)
  rcases hc with rfl | rfl <;> exact ⟨_, rfl, Or.inl rfl⟩

theorem exceeds_tree_num {l : Numeral} (h : l.OutOfRange) {b t : List Char} (hb : Blank b)
    (ht : Breaks t) : (tree levels).Exceeds (b ++ (l.text ++ t)) := by
  have hrough : RoughSpelling (.num (.int 0)) l.text := .num (Or.inl h)
  have hsolid := solid_spelling hrough t
  have hscalar := exceeds_scalar h ht
  obtain ⟨c, u, hcu, hc⟩ := exists_begins hrough
  rw [tree.eq_def]
  refine (takes_blanks hb hsolid).exceeds ((takes_peek _).exceeds ?_)
  rw [hcu, List.cons_append] at hscalar ⊢
  rw [List.head?_cons]
  split
  · next heq => exact absurd (Option.some.inj heq) (hc.ne_of_num (by decide))
  · next heq => exact absurd (Option.some.inj heq) (hc.ne_of_num (by decide))
  · exact hscalar

theorem settles_scalar (hj : j.depth = 0) : Settles levels j := by
  intro b s t hb hs ht
  have hdepth : j.depth ≤ levels := hj ▸ Nat.zero_le levels
  cases hs with
  | null => exact Or.inl ⟨.null, hdepth⟩
  | true => exact Or.inl ⟨.true, hdepth⟩
  | false => exact Or.inl ⟨.false, hdepth⟩
  | str hw => exact Or.inl ⟨.str hw, hdepth⟩
  | arr => cases hj
  | obj => cases hj
  | num hmeans =>
      rcases hmeans with hout | hdenotes
      · exact Or.inr (exceeds_tree_num hout hb ht)
      · exact Or.inl ⟨.num hdenotes, hdepth⟩

theorem settles_list {es : List Json} (h : ∀ e ∈ es, Settles levels e) :
    Settles (levels + 1) (.arr es) := by
  intro b s t hb hs ht
  have hsolid := solid_spelling hs t
  cases hs with
  | arr helements =>
      rcases elements_settle h helements t with ⟨hread, hdepths⟩ | hexceeds
      · exact Or.inl ⟨.arr hread, Nat.succ_le_succ (depthOfElements_le_iff.mpr hdepths)⟩
      · refine Or.inr ?_
        rw [tree.eq_def]
        refine (takes_blanks hb hsolid).exceeds ((takes_peek _).exceeds ?_)
        exact (takes_advance '[' _).exceeds hexceeds.bind

theorem settles_object {es : List (String × Json)} (h : ∀ e ∈ es, Settles levels e.2) :
    Settles (levels + 1) (.obj es) := by
  intro b s t hb hs ht
  have hsolid := solid_spelling hs t
  cases hs with
  | obj hentries =>
      rcases entries_settle h hentries t with ⟨hread, hdepths⟩ | hexceeds
      · exact Or.inl ⟨.obj hread, Nat.succ_le_succ (depthOfEntries_le_iff.mpr hdepths)⟩
      · refine Or.inr ?_
        rw [tree.eq_def]
        refine (takes_blanks hb hsolid).exceeds ((takes_peek _).exceeds ?_)
        exact (takes_advance '{' _).exceeds hexceeds.bind

/-- **Limits.** However a value is written, its numbers are in range and its containers nest as
deep as the reader allows at most, or else the reader gives it up. -/
theorem tree_settles (levels : Nat) (j : Json) : Settles levels j := by
  induction levels generalizing j with
  | zero =>
      cases j with
      | null | bool | num | str => exact settles_scalar rfl
      | arr es =>
          intro b s t hb hs _
          cases hs with
          | arr => exact Or.inr (exceeds_tree_zero (Or.inl rfl) hb _)
      | obj es =>
          intro b s t hb hs _
          cases hs with
          | obj => exact Or.inr (exceeds_tree_zero (Or.inr rfl) hb _)
  | succ levels ih =>
      cases j with
      | null | bool | num | str => exact settles_scalar rfl
      | arr es => exact settles_list fun e _ => ih e
      | obj es => exact settles_object fun e _ => ih e.2

end Tree

end Reader

end Json

end Nullness
