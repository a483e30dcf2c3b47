import Mathlib.Data.List.Forall2
import Nullness.Proofs.Taking

/-!
# Readers of whole values

A reader of any value gives back the value that was written, as long as containers do not nest
too deep. A reader of values of a known form does the same for values of this form.

- `Json.Reader.Reads`: a reader takes all spellings of a value for one thing.
- `Json.Reader.Next`: how a container goes on.
- `Json.Reader.takes_elements`, `Json.Reader.takes_entries`: what stands in a container.
- `Json.Reader.reads_tree`: any value is read as itself.
-/

namespace Nullness

namespace Json

namespace Reader

variable {α β σ : Type}

/-- However `j` is written, behind blanks, `r` takes it for `a`. -/
def Reads (r : Reader α) (j : Json) (a : α) : Prop :=
  ∀ ⦃b s t : List Char⦄, Blank b → Spelling j s → Breaks t → r.Takes (b ++ (s ++ t)) a t

theorem Reads.within {r : Reader α} {j : Json} {a : α} {seg : Segment} (h : r.Reads j a) :
    (r.within seg).Reads j a :=
  fun _ _ _ hb hs ht => (h hb hs ht).within

/-! ## How spellings begin -/

/-- The characters that spellings of a value begin with. -/
def Begins : Json → Char → Prop
  | .null, c => c = 'n'
  | .bool true, c => c = 't'
  | .bool false, c => c = 'f'
  | .num _, c => c = '-' ∨ c.isDigit = true
  | .str _, c => c = '"'
  | .arr _, c => c = '['
  | .obj _, c => c = '{'

section Begin
variable {means : Numeral → Number → Prop} {j : Json} {s t : List Char} {c : Char}

theorem exists_begins (h : SpellingBy means j s) : ∃ c u, s = c :: u ∧ Begins j c := by
  cases h with
  | null => exact ⟨_, _, rfl, rfl⟩
  | true => exact ⟨_, _, rfl, rfl⟩
  | false => exact ⟨_, _, rfl, rfl⟩
  | str h =>
      cases h
      exact ⟨_, _, rfl, rfl⟩
  | arr h => exact ⟨_, _, rfl, rfl⟩
  | obj h => exact ⟨_, _, rfl, rfl⟩
  | @num l _ h =>
      obtain ⟨d, ds, hcons⟩ := List.exists_cons_of_ne_nil l.whole_ne
      have hdigit : d.isDigit = true := l.whole_isDigit d (hcons ▸ List.mem_cons_self)
      rw [Numeral.text, hcons]
      cases l.negative with
      | true => exact ⟨_, _, rfl, Or.inl rfl⟩
      | false => exact ⟨_, _, rfl, Or.inr hdigit⟩

/-- Numbers begin with a sign or a digit only. -/
theorem Begins.ne_of_num {n : Number} {d : Char} (h : Begins (.num n) c)
    (hd : ¬ (d = '-' ∨ d.isDigit = true)) : c ≠ d := by
  rintro rfl
  exact hd h

/-- No spelling begins with a blank, a comma or a closing bracket. -/
theorem Begins.opens (h : Begins j c) :
    isBlank c = false ∧ c ≠ ',' ∧ c ≠ ']' ∧ c ≠ '}' := by
  cases j with
  | num n =>
      have hne {d : Char} := h.ne_of_num (d := d)
      refine ⟨?_, hne (by decide), hne (by decide), hne (by decide)⟩
      simp [isBlank, hne]
  | bool b =>
      cases b <;> cases h <;> decide
  | _ =>
      cases h
      decide

theorem solid_spelling (h : SpellingBy means j s) (t : List Char) : Solid (s ++ t) := by
  obtain ⟨c, u, rfl, hc⟩ := exists_begins h
  exact solid_cons hc.opens.1 (u ++ t)

end Begin

/-! ## Steps within containers -/

/-- Where a container goes on, behind blanks: at its closing bracket, at its first value, or at the
value behind a comma. -/
inductive Next (br : Bracket) : Bool → List Char → Bool → List Char → Prop
  | closing {first : Bool} {s t : List Char} (h : s.dropWhile isBlank = br.closing :: t) :
      Next br first s false (br.closing :: t)
  | first {s t : List Char} {c : Char} (h : s.dropWhile isBlank = c :: t) (hc : c ≠ br.closing) :
      Next br true s true (c :: t)
  | comma {s t u : List Char} {c : Char} (h : s.dropWhile isBlank = ',' :: t)
      (h' : t.dropWhile isBlank = c :: u) (hc : c ≠ br.closing) : Next br false s true (c :: u)

section Steps
variable {k : String} {b b' l s t u : List Char} {c : Char} {br : Bracket}

theorem isBlank_closing (br : Bracket) : isBlank br.closing = false := by
  cases br <;> decide

/-- What is at hand is a value of a container: it is no blank, comma or closing bracket. -/
structure Opening (br : Bracket) (s : List Char) : Prop where
  solid : Solid s
  exists_head : ∃ c u, s = c :: u ∧ c ≠ br.closing

theorem Opening.of_spelling {means : Numeral → Number → Prop} {j : Json}
    (h : SpellingBy means j s) (t : List Char) :
    Opening .list (s ++ t) := by
  obtain ⟨c, u, rfl, hc⟩ := exists_begins h
  exact ⟨solid_cons hc.opens.1 _, c, u ++ t, rfl, hc.opens.2.2.1⟩

theorem Opening.of_literal (h : Literal k l) (t : List Char) : Opening .object (l ++ t) := by
  cases h
  exact ⟨solid_cons (by decide) _, _, _, rfl, by decide⟩

theorem next_of_takes {first more : Bool} (h : (nextValue br first).Takes s more t) :
    Next br first s more t := by
  obtain ⟨le, h⟩ := h
  unfold nextValue at h
  split at h
  · cases h
  · next c u hs =>
    split at h
    · next hc =>
      cases h
      cases hc
      exact .closing hs
    · next hc =>
      split at h
      · next hfirst =>
        cases h
        cases hfirst
        exact .first hs hc
      · next hfirst =>
        split at h
        · next hcomma =>
          split at h
          · cases h
          · next d v hu =>
            split at h
            · cases h
            · next hd =>
              obtain rfl : first = false := Bool.eq_false_iff.mpr hfirst
              cases h
              cases hcomma
              exact .comma hs hu hd
        · cases h

theorem takes_of_next {first more : Bool} (h : Next br first s more t) :
    (nextValue br first).Takes s more t := by
  have hcomma : ',' ≠ br.closing := by cases br <;> decide
  cases h with
  | closing hs =>
      unfold Takes nextValue
      split
      · next hs' => cases hs.symm.trans hs'
      · next hs' =>
        cases hs.symm.trans hs'
        exact ⟨length_le_of_dropWhile hs, if_pos rfl⟩
  | first hs hc =>
      unfold Takes nextValue
      split
      · next hs' => cases hs.symm.trans hs'
      · next hs' =>
        cases hs.symm.trans hs'
        rw [if_neg hc]
        exact ⟨length_le_of_dropWhile hs, rfl⟩
  | comma hs hu hc =>
      unfold Takes nextValue
      split
      · next hs' => cases hs.symm.trans hs'
      · next hs' =>
        cases hs.symm.trans hs'
        rw [if_neg hcomma, if_neg (by decide), if_pos rfl]
        split
        · next hu' => cases hu.symm.trans hu'
        · next hu' =>
          cases hu.symm.trans hu'
          exact ⟨length_le_behind (length_le_of_dropWhile hs) hu, if_neg hc⟩

theorem takes_nextValue_first (hb : Blank b) (hs : Opening br s) :
    (nextValue br true).Takes (b ++ s) true s := by
  obtain ⟨hsolid, c, u, rfl, hne⟩ := hs
  exact takes_of_next (.first (dropWhile_blank hb hsolid) hne)

theorem takes_nextValue_more (hb : Blank b) (hb' : Blank b') (hs : Opening br s) :
    (nextValue br false).Takes (b ++ ',' :: (b' ++ s)) true s := by
  obtain ⟨hsolid, c, u, rfl, hne⟩ := hs
  have hcomma := dropWhile_blank hb (solid_cons (by decide : isBlank ',' = false) (b' ++ c :: u))
  exact takes_of_next (.comma hcomma (dropWhile_blank hb' hsolid) hne)

theorem takes_nextValue_end (hb : Blank b) (first : Bool) (t : List Char) :
    (nextValue br first).Takes (b ++ br.closing :: t) false (br.closing :: t) :=
  takes_of_next (.closing (dropWhile_blank hb (solid_cons (isBlank_closing br) t)))

theorem closeAttempt_eq_none_iff :
    closeAttempt br s = (t, none) ↔ s.dropWhile isBlank = br.closing :: t := by
  unfold closeAttempt
  constructor
  · intro h
    split at h
    · cases h
    · next c t hs =>
      split at h
      · next hc =>
        cases h
        rw [hs, hc]
      · split at h
        · split at h <;> cases h
        · cases h
  · intro h
    rw [h]
    exact if_pos rfl

/-- Only a closing bracket lets a container be closed. -/
theorem takes_close_iff :
    (close br).Takes s () t ↔ s.dropWhile isBlank = br.closing :: t := by
  rw [← closeAttempt_eq_none_iff]
  unfold Takes close
  constructor
  · rintro ⟨le, h⟩
    split at h
    · next hattempt =>
      cases h
      exact hattempt
    · cases h
  · intro hattempt
    split
    · next hattempt' =>
      cases hattempt.symm.trans hattempt'
      exact ⟨length_le_of_closeAttempt hattempt, rfl⟩
    · next hattempt' => cases hattempt.symm.trans hattempt'

theorem takes_close (hb : Blank b) (t : List Char) :
    (close br).Takes (b ++ br.closing :: t) () t :=
  takes_close_iff.mpr (dropWhile_blank hb (solid_cons (isBlank_closing br) t))

theorem takes_quotedKey (hk : Literal k l) (t : List Char) : quotedKey.Takes (l ++ t) k t := by
  obtain ⟨hs⟩ := hk
  refine takes_peek_bind ?_
  simp only [List.cons_append, List.head?_cons, if_pos, List.append_assoc, List.nil_append]
  exact takes_advance_bind (takes_literalRest hs t)

theorem takes_nextKey {first : Bool} (h : (nextValue .object first).Takes s true (l ++ t))
    (hk : Literal k l) : (nextKey first).Takes s (some k) t :=
  h.bind (takes_quotedKey hk t).map

theorem takes_nextKey_end (hb : Blank b) (first : Bool) (t : List Char) :
    (nextKey first).Takes (b ++ '}' :: t) none ('}' :: t) :=
  (takes_nextValue_end hb first t).bind (takes_pure none _)

theorem takes_colon (hb : Blank b) (t : List Char) : colon.Takes (b ++ ':' :: t) () t := by
  refine takes_blanks_bind hb (solid_cons (by decide) t) (takes_peek_bind ?_)
  rw [List.head?_cons]
  dsimp only
  rw [if_pos rfl]
  exact takes_advance ':' t

end Steps

/-! ## Elements and entries -/

theorem breaks_cons {c : Char} (h : c ∈ [' ', '\n', '\t', '\r', ',', ']', '}']) (s : List Char) :
    Breaks (c :: s) := by
  rintro d ⟨⟩
  simp only [List.mem_cons, List.not_mem_nil, or_false] at h
  rcases h with rfl | rfl | rfl | rfl | rfl | rfl | rfl <;> decide

theorem breaks_blank {b s : List Char} (hb : Blank b) (hs : Breaks s) : Breaks (b ++ s) := by
  cases b with
  | nil => exact hs
  | cons c b =>
      have hc : c ∈ [' ', '\n', '\t', '\r'] := hb c List.mem_cons_self
      exact breaks_cons (List.mem_append_left [',', ']', '}'] hc) (b ++ s)

theorem breaks_moreElements {means : Numeral → Number → Prop} {es : List Json} {s : List Char}
    (h : MoreElementsBy means es s) (t : List Char) : Breaks (s ++ t) := by
  cases h with
  | nil hb =>
      rw [List.append_assoc]
      exact breaks_blank hb (breaks_cons (by decide) t)
  | cons hb _ _ _ =>
      rw [List.append_assoc]
      exact breaks_blank hb (breaks_cons (by decide) _)

theorem breaks_moreEntries {means : Numeral → Number → Prop} {es : List (String × Json)}
    {s : List Char} (h : MoreEntriesBy means es s) (t : List Char) : Breaks (s ++ t) := by
  cases h with
  | nil hb =>
      rw [List.append_assoc]
      exact breaks_blank hb (breaks_cons (by decide) t)
  | cons hb _ _ _ _ _ _ =>
      rw [List.append_assoc]
      exact breaks_blank hb (breaks_cons (by decide) _)

section Elements
variable {element : Nat → Reader α} {acc : Array α} {a : α} {es : List Json} {as : List α}
variable {s t u : List Char}

theorem elementStep_done (element : Nat → Reader α) (acc : Array α)
    (h : (nextValue .list false).Takes s false t) :
    ∃ le, elementStep element acc s = .ok (.done acc.toList t le) := by
  obtain ⟨le, h⟩ := h
  unfold elementStep
  split
  · next h' =>
    rw [h] at h'
    cases h'
  · next h' =>
    rw [h] at h'
    cases h'
    exact ⟨le, rfl⟩
  · next h' =>
    rw [h] at h'
    cases h'

theorem elementStep_again (h : (nextValue .list false).Takes s true t)
    (he : (element acc.size).Takes t a u) :
    ∃ lt, elementStep element acc s = .ok (.again (acc.push a) u lt) := by
  obtain ⟨le, h⟩ := h
  have hwithin : ((element acc.size).within (.index acc.size)).Takes t a u := he.within
  obtain ⟨le', he⟩ := hwithin
  unfold elementStep
  split
  · next h' =>
    rw [h] at h'
    cases h'
  · next h' =>
    rw [h] at h'
    cases h'
  · next h' =>
    rw [h] at h'
    cases h'
    rw [he]
    exact ⟨Nat.lt_of_le_of_lt le' (nextValue_lt h), rfl⟩

theorem takes_elementLoop (hread : List.Forall₂ (fun e a => ∀ i, (element i).Reads e a) es as)
    (hs : MoreElements es s) (acc : Array α) (t : List Char) :
    (loop (elementStep element) acc).Takes (s ++ t) (acc.toList ++ as) (']' :: t) := by
  induction hread generalizing acc s with
  | nil =>
      obtain ⟨hb⟩ := hs
      obtain ⟨le, hstep⟩ := elementStep_done element acc (takes_nextValue_end hb false t)
      rw [List.append_nil, List.append_assoc]
      exact takes_loop_done hstep
  | @cons e a es as he _ ih =>
      cases hs with
      | @cons _ _ b b' s₁ s₂ hb hb' hspell hmore =>
          simp only [List.append_assoc, List.cons_append]
          have hnext := takes_nextValue_more hb hb' (.of_spelling hspell (s₂ ++ t))
          have helement := he acc.size (b := []) nofun hspell (breaks_moreElements hmore t)
          obtain ⟨lt, hstep⟩ := elementStep_again hnext helement
          have hrest := ih hmore (acc.push a)
          rw [Array.toList_push, List.append_assoc] at hrest
          exact takes_loop_again hstep hrest

/-- The elements of a list are taken up to the closing bracket, which stays. -/
theorem takes_elements (hread : List.Forall₂ (fun e a => ∀ i, (element i).Reads e a) es as)
    (hs : Elements es s) (t : List Char) :
    (elements element).Takes (s ++ t) as (']' :: t) := by
  cases hread with
  | nil =>
      obtain ⟨hb⟩ := hs
      rw [List.append_assoc]
      have hend : (nextValue .list true).Takes _ false (']' :: t) := takes_nextValue_end hb true t
      exact hend.bind (takes_pure [] _)
  | @cons e a es as he hes =>
      obtain _ | ⟨hb, hspell, hmore⟩ := hs
      simp only [List.append_assoc]
      refine (takes_nextValue_first hb (.of_spelling hspell _)).bind ?_
      have helement := he 0 (b := []) nofun hspell (breaks_moreElements hmore t)
      exact helement.within.bind (takes_elementLoop hes hmore #[a] t)

end Elements

/-- What `entry` makes of a colon and a value behind it, however they are written: it goes on
with the state `d`. -/
def ReadsEntry (entry : Reader (σ ⊕ β)) (v : Json) (d : σ) : Prop :=
  ∀ ⦃b b' s t : List Char⦄, Blank b → Blank b' → Spelling v s → Breaks t →
    entry.Takes (b ++ ':' :: (b' ++ (s ++ t))) (.inl d) t

/-- Going through entries in their order, `entry` gets from one state to another. -/
inductive ReadsEntries (entry : String → σ → Reader (σ ⊕ β)) :
    σ → List (String × Json) → σ → Prop
  | nil (d : σ) : ReadsEntries entry d [] d
  | cons {k : String} {v : Json} {es : List (String × Json)} {d d' d'' : σ}
      (h : ReadsEntry (entry k d) v d') (hes : ReadsEntries entry d' es d'') :
      ReadsEntries entry d ((k, v) :: es) d''

section Entries
variable {entry : String → σ → Reader (σ ⊕ β)} {finish : σ → β} {d d' : σ} {first : Bool}
variable {es : List (String × Json)} {k : String} {s t u : List Char}

theorem entryStep_done (entry : String → σ → Reader (σ ⊕ β)) (finish : σ → β) (d : σ)
    (h : (nextKey first).Takes s none t) :
    ∃ le, entryStep entry finish (first, d) s = .ok (.done (finish d) t le) := by
  obtain ⟨le, h⟩ := h
  unfold entryStep
  dsimp only
  split
  · next h' =>
    rw [h] at h'
    cases h'
  · next h' =>
    rw [h] at h'
    cases h'
    exact ⟨le, rfl⟩
  · next h' =>
    rw [h] at h'
    cases h'

theorem entryStep_again (h : (nextKey first).Takes s (some k) t)
    (he : (entry k d).Takes t (.inl d') u) :
    ∃ lt, entryStep entry finish (first, d) s = .ok (.again (false, d') u lt) := by
  obtain ⟨le, h⟩ := h
  obtain ⟨le', he⟩ := he
  unfold entryStep
  dsimp only
  split
  · next h' =>
    rw [h] at h'
    cases h'
  · next h' =>
    rw [h] at h'
    cases h'
  · next h' =>
    rw [h] at h'
    cases h'
    rw [he]
    exact ⟨Nat.lt_of_le_of_lt le' (nextKey_lt h), rfl⟩

theorem takes_entryLoop (hread : ReadsEntries entry d es d') (hs : MoreEntries es s)
    (t : List Char) :
    (loop (entryStep entry finish) (false, d)).Takes (s ++ t) (finish d') ('}' :: t) := by
  induction hread generalizing s with
  | nil d =>
      obtain ⟨hb⟩ := hs
      obtain ⟨le, hstep⟩ := entryStep_done entry finish d (takes_nextKey_end hb false t)
      rw [List.append_assoc]
      exact takes_loop_done hstep
  | cons he _ ih =>
      cases hs with
      | @cons _ _ _ a b l b' b'' s₁ s₂ ha hb hk hb' hb'' hspell hmore =>
          simp only [List.append_assoc, List.cons_append]
          have hnext := takes_nextValue_more ha hb
            (.of_literal hk (b' ++ ':' :: (b'' ++ (s₁ ++ (s₂ ++ t)))))
          have hentry := he hb' hb'' hspell (breaks_moreEntries hmore t)
          obtain ⟨lt, hstep⟩ := entryStep_again (takes_nextKey hnext hk) hentry
          exact takes_loop_again hstep (ih hmore)

/-- The entries of an object are taken up to the closing bracket, which stays. -/
theorem takes_entries (hread : ReadsEntries entry d es d') (hs : Entries es s) (t : List Char) :
    (entries entry finish d).Takes (s ++ t) (finish d') ('}' :: t) := by
  cases hread with
  | nil =>
      obtain ⟨hb⟩ := hs
      obtain ⟨le, hstep⟩ := entryStep_done entry finish d (takes_nextKey_end hb true t)
      rw [List.append_assoc]
      exact takes_loop_done hstep
  | cons he hes =>
      cases hs with
      | @cons _ _ _ b l b' b'' s₁ s₂ hb hk hb' hb'' hspell hmore =>
          simp only [List.append_assoc, List.cons_append]
          have hnext := takes_nextValue_first hb
            (.of_literal hk (b' ++ ':' :: (b'' ++ (s₁ ++ (s₂ ++ t)))))
          have hentry := he hb' hb'' hspell (breaks_moreEntries hmore t)
          obtain ⟨lt, hstep⟩ := entryStep_again (takes_nextKey hnext hk) hentry
          exact takes_loop_again hstep (takes_entryLoop hes hmore t)

end Entries

/-! ## Any value -/

section Tree
variable {j : Json} {levels : Nat} {b s t : List Char}

/-- What begins as a number does is read as a number. -/
theorem scalar_of_begins {n : Number} {c : Char} (hc : Begins (.num n) c) (u : List Char) :
    scalar (c :: u) = (do return .num (← number) : Reader Json) (c :: u) := by
  have hne {d : Char} := hc.ne_of_num (d := d)
  have hc : c = '-' ∨ c.isDigit = true := hc
  rw [scalar, peek_bind_apply, List.head?_cons]
  dsimp only
  rw [if_neg (hne (by decide)), if_neg (hne (by decide)), if_neg (hne (by decide)),
    if_neg (hne (by decide)), if_pos hc]

theorem takes_scalar (hs : Spelling j s) (hj : j.depth = 0) (ht : Breaks t) :
    scalar.Takes (s ++ t) j t := by
  cases hs with
  | null => exact takes_peek_bind (takes_advance_bind ((takes_word _ t).bind (takes_pure _ t)))
  | true => exact takes_peek_bind (takes_advance_bind ((takes_word _ t).bind (takes_pure _ t)))
  | false => exact takes_peek_bind (takes_advance_bind ((takes_word _ t).bind (takes_pure _ t)))
  | arr => cases hj
  | obj => cases hj
  | str h =>
      obtain ⟨hchars⟩ := h
      rw [List.cons_append, List.append_assoc]
      exact takes_peek_bind
        (takes_advance_bind ((takes_literalRest hchars t).bind (takes_pure _ t)))
  | @num l n h =>
      obtain ⟨c, u, hcu, hc⟩ := exists_begins (.num h)
      have hnumber : (do return .num (← number) : Reader Json).Takes (l.text ++ t) (.num n) t :=
        (takes_number h ht).bind (takes_pure _ t)
      rw [hcu, List.cons_append] at hnumber ⊢
      rw [Takes, scalar_of_begins hc]
      exact hnumber

/-- A reader of values is read behind a colon. -/
theorem Reads.entry {r : Reader α} {v : Json} {a : α} (h : r.Reads v a) {b b' : List Char}
    (hb : Blank b) (hb' : Blank b') (hs : Spelling v s) (ht : Breaks t) {f : α → Reader β} {d : β}
    {u : List Char} (hf : (f a).Takes t d u) :
    (colon >>= fun _ => r >>= f).Takes (b ++ ':' :: (b' ++ (s ++ t))) d u :=
  (takes_colon hb _).bind ((h hb' hs ht).bind hf)

theorem exists_readsEntries {value : Reader Json} {es : List (String × Json)}
    (h : ∀ e ∈ es, value.Reads e.2 e.2) (acc : Array (String × Json)) :
    ∃ acc', ReadsEntries (treeEntry value) acc es acc' ∧ acc'.toList = acc.toList ++ es := by
  induction es generalizing acc with
  | nil => exact ⟨acc, .nil acc, (List.append_nil _).symm⟩
  | cons e es ih =>
      obtain ⟨hv, hes⟩ := List.forall_mem_cons.mp h
      obtain ⟨acc', hread, hlist⟩ := ih hes (acc.push e)
      have hentry : ReadsEntry (treeEntry value e.1 acc) e.2 (acc.push e) :=
        fun _ _ _ _ hb hb' hs ht => hv.within.entry hb hb' hs ht (takes_pure _ _)
      refine ⟨acc', .cons hentry hread, ?_⟩
      rw [hlist, Array.toList_push, List.append_assoc, List.singleton_append]

theorem reads_tree_list {es : List Json} (h : ∀ e ∈ es, (tree levels).Reads e e) :
    (tree (levels + 1)).Reads (.arr es) (.arr es) := by
  intro b s t hb hs ht
  have hsolid := solid_spelling hs t
  cases hs with
  | arr helements =>
      rw [tree.eq_def]
      refine takes_blanks_bind hb hsolid (takes_peek_bind (takes_advance_bind ?_))
      have hread : List.Forall₂ (fun e a => ∀ _ : Nat, (tree levels).Reads e a) es es :=
        List.forall₂_same.mpr fun e he _ => h e he
      exact (takes_elements hread helements t).bind
        ((takes_close (b := []) nofun t).bind (takes_pure _ t))

theorem reads_tree_object {es : List (String × Json)}
    (h : ∀ e ∈ es, (tree levels).Reads e.2 e.2) :
    (tree (levels + 1)).Reads (.obj es) (.obj es) := by
  intro b s t hb hs ht
  have hsolid := solid_spelling hs t
  cases hs with
  | obj hentries =>
      obtain ⟨acc, hread, hlist⟩ := exists_readsEntries h #[]
      rw [tree.eq_def]
      refine takes_blanks_bind hb hsolid (takes_peek_bind (takes_advance_bind ?_))
      let finish (acc : Array (String × Json)) : Json := .obj acc.toList
      have hobject : (entries _ finish #[]).Takes _ (finish acc) _ := takes_entries hread hentries t
      have hlist : finish acc = .obj es := by rw [← List.nil_append es, ← hlist]
      rw [hlist] at hobject
      exact hobject.bind ((takes_close (b := []) nofun t).bind (takes_pure _ t))

theorem reads_tree_scalar (hj : j.depth = 0) : (tree levels).Reads j j := by
  intro b s t hb hs ht
  have hsolid := solid_spelling hs t
  have hscalar := takes_scalar hs hj ht
  obtain ⟨c, u, hcu, hc⟩ := exists_begins hs
  rw [tree.eq_def]
  refine takes_blanks_bind hb hsolid (takes_peek_bind ?_)
  rw [hcu, List.cons_append, List.head?_cons]
  -- only containers begin with a bracket
  have hne : c ≠ '[' ∧ c ≠ '{' := by
    cases j with
    | arr => cases hj
    | obj => cases hj
    | null | str =>
        cases hc
        decide
    | bool b =>
        cases b <;> cases hc <;> decide
    | num n => exact ⟨hc.ne_of_num (by decide), hc.ne_of_num (by decide)⟩
  split
  · next heq => exact absurd (Option.some.inj heq) hne.1
  · next heq => exact absurd (Option.some.inj heq) hne.2
  · rw [← List.cons_append, ← hcu]
    exact hscalar

/-- **Any value.** A value is read as itself, unless more containers stand one within the other
than the reader allows. -/
theorem reads_tree : ∀ {levels : Nat} {j : Json}, j.depth ≤ levels → (tree levels).Reads j j := by
  intro levels
  induction levels with
  | zero => exact fun hj => reads_tree_scalar (Nat.le_zero.mp hj)
  | succ levels ih =>
      intro j hj
      cases j with
      | null | bool | num | str => exact reads_tree_scalar rfl
      | arr es =>
          have hes := depthOfElements_le_iff.mp (Nat.le_of_succ_le_succ hj)
          exact reads_tree_list fun e he => ih (hes e he)
      | obj es =>
          have hes := depthOfEntries_le_iff.mp (Nat.le_of_succ_le_succ hj)
          exact reads_tree_object fun e he => ih (hes e he)

end Tree

end Reader

end Json

end Nullness
