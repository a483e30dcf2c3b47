import Nullness.Proofs.Taking

/-!
# Readers do not look ahead

What a reader takes off a text is settled by the part that it takes and the character behind it.
So a text may be continued behind what is left of it. A reader that gets to a closing token needs
not even the next character. This module is about the tokens, and about loops.

- `Json.Reader.Local`: what is taken stays the same when the text goes on behind what is left.
- `Json.Reader.Seals`: what is taken stays the same even if nothing is left.
- `Json.Reader.local_literalRest`, `Json.Reader.local_scalar`: strings, numbers and words.
-/

namespace Nullness

namespace Json

namespace Reader

variable {α β σ : Type}

/-- What `r` takes off a text and does not use up, it takes off every continuation of it. -/
def Local (r : Reader α) : Prop :=
  ∀ ⦃s a t⦄, r.Takes s a t → t ≠ [] → ∀ u, r.Takes (s ++ u) a (t ++ u)

/-- What `r` takes off a text, it takes off every continuation of it, even if nothing is left. -/
def Seals (r : Reader α) : Prop :=
  ∀ ⦃s a t⦄, r.Takes s a t → s ≠ [] ∧ ∀ u, r.Takes (s ++ u) a (t ++ u)

/-! ## Readers in a row -/

section Basic
variable {r : Reader α} {f : α → Reader β} {s t : List Char} {a : α}

theorem Takes.rest_ne_nil (h : r.Takes s a t) (ht : t ≠ []) : s ≠ [] := by
  obtain ⟨le, -⟩ := h
  rintro rfl
  exact ht (List.length_eq_zero_iff.mp (Nat.le_zero.mp le))

theorem takes_bind_iff {b : β} {u : List Char} :
    (r >>= f).Takes s b u ↔ ∃ a t, r.Takes s a t ∧ (f a).Takes t b u := by
  constructor
  · rintro ⟨le, h⟩
    obtain ⟨a, t, le₁, le₂, hr, hf⟩ := bind_eq_ok.mp h
    exact ⟨a, t, ⟨le₁, hr⟩, le₂, hf⟩
  · rintro ⟨a, t, hr, hf⟩
    exact hr.bind hf

theorem local_pure (a : α) : (pure a : Reader α).Local := by
  rintro s _ _ ⟨_, ⟨⟩⟩ _ u
  exact takes_pure a (s ++ u)

theorem Local.bind (h : r.Local) (hf : ∀ a, (f a).Local) : (r >>= f).Local := by
  intro s b v hr hv u
  obtain ⟨a, t, hr, hfr⟩ := takes_bind_iff.mp hr
  exact (h hr (hfr.rest_ne_nil hv) u).bind (hf a hfr hv u)

theorem Local.map {g : α → β} (h : r.Local) : (g <$> r).Local :=
  h.bind (f := pure ∘ g) fun a => local_pure (g a)

theorem takes_within_iff {seg : Segment} : (r.within seg).Takes s a t ↔ r.Takes s a t := by
  constructor
  · rintro ⟨le, h⟩
    rw [Reader.within] at h
    split at h
    · cases h
    · next htaken =>
      cases h
      exact ⟨_, htaken⟩
  · exact Takes.within

theorem Local.within {seg : Segment} (h : r.Local) : (r.within seg).Local :=
  fun _ _ _ hr ht u => (h (takes_within_iff.mp hr) ht u).within

theorem Seals.local (h : r.Seals) : r.Local :=
  fun _ _ _ hr _ => (h hr).2

theorem Seals.bind_pure {g : α → β} (h : r.Seals) : (r >>= fun a => pure (g a)).Seals := by
  intro s b t hr
  obtain ⟨a, t, hr, -, ⟨⟩⟩ := takes_bind_iff.mp hr
  exact ⟨(h hr).1, fun u => ((h hr).2 u).bind (takes_pure _ _)⟩

/-- What comes last decides. -/
theorem Local.bind_seals (h : r.Local) (hf : ∀ a, (f a).Seals) : (r >>= f).Seals := by
  intro s b v hr
  obtain ⟨a, t, hr, hfr⟩ := takes_bind_iff.mp hr
  obtain ⟨ht, hgo⟩ := hf a hfr
  exact ⟨hr.rest_ne_nil ht, fun u => (h hr ht u).bind (hgo u)⟩

/-- A reader that never takes anything. -/
theorem seals_of_error (h : ∀ s, ∃ e, r s = .error e) : r.Seals := by
  rintro s a t ⟨le, hr⟩
  obtain ⟨e, he⟩ := h s
  rw [he] at hr
  cases hr

theorem seals_fail (cause : Cause) : (fail cause : Reader α).Seals :=
  seals_of_error fun _ => ⟨_, rfl⟩

theorem seals_failBefore (cause : Cause) : (failBefore cause : Reader α).Seals :=
  seals_of_error fun _ => ⟨_, rfl⟩

theorem local_fail (cause : Cause) : (fail cause : Reader α).Local :=
  (seals_fail cause).local

theorem local_failBefore (cause : Cause) : (failBefore cause : Reader α).Local :=
  (seals_failBefore cause).local

theorem local_peek : peek.Local := by
  rintro s _ _ ⟨_, ⟨⟩⟩ hs u
  obtain ⟨c, t, rfl⟩ := List.exists_cons_of_ne_nil hs
  exact takes_peek (c :: (t ++ u))

theorem local_advance : advance.Local := by
  rintro s _ _ ⟨_, ⟨⟩⟩ hs u
  cases s with
  | nil => exact absurd rfl hs
  | cons c t => exact takes_advance c (t ++ u)

theorem local_eat (c : Char) : (eat c).Local := by
  rintro s eaten t ⟨_, h⟩ ht u
  rw [eat] at h
  split at h
  · next hc =>
    cases h
    cases s with
    | nil => cases hc
    | cons d s =>
      obtain rfl : d = c := Option.some.inj hc
      exact takes_eat d (s ++ u)
  · next hc =>
    cases h
    obtain ⟨d, s, rfl⟩ := List.exists_cons_of_ne_nil ht
    exact takes_eat_of_ne hc

/-- A run of characters that stops somewhere stops there also when the text goes on. -/
theorem span_append_of_cons {p : Char → Bool} {c : Char} (h : s.dropWhile p = c :: t)
    (u : List Char) :
    (s ++ u).takeWhile p = s.takeWhile p ∧ (s ++ u).dropWhile p = c :: (t ++ u) := by
  have hc : p c = false := by
    have hhead := List.head?_dropWhile_not p s
    rwa [h] at hhead
  have hrun : ∀ d ∈ s.takeWhile p, p d = true := fun d => List.mem_takeWhile_imp
  have hstop : ∀ d, (c :: (t ++ u)).head? = some d → p d = false := by
    rintro d ⟨⟩
    exact hc
  have hwhole : s ++ u = s.takeWhile p ++ c :: (t ++ u) := by
    rw [← List.cons_append, ← h, ← List.append_assoc, List.takeWhile_append_dropWhile]
  rw [hwhole]
  exact span_append hrun hstop

theorem local_span (p : Char → Bool) : (span p).Local := by
  rintro s _ _ ⟨_, ⟨⟩⟩ hs u
  obtain ⟨c, t, hct⟩ := List.exists_cons_of_ne_nil hs
  obtain ⟨htake, hdrop⟩ := span_append_of_cons hct u
  refine ⟨hct ▸ length_le_of_dropWhile hdrop, ?_⟩
  simp only [span, htake, hdrop, hct, List.cons_append]

theorem local_blanks : blanks.Local := by
  rintro s _ _ ⟨_, ⟨⟩⟩ hs u
  obtain ⟨c, t, hct⟩ := List.exists_cons_of_ne_nil hs
  obtain ⟨-, hdrop⟩ := span_append_of_cons hct u
  refine ⟨hct ▸ length_le_of_dropWhile hdrop, ?_⟩
  simp only [blanks, hdrop, hct, List.cons_append]

theorem local_ite {p : Prop} [Decidable p] {r' : Reader α} (h : r.Local) (h' : r'.Local) :
    (if p then r else r').Local := by
  split
  · exact h
  · exact h'

theorem local_word (w : List Char) : (word w).Local := by
  induction w with
  | nil => exact local_pure ()
  | cons c w ih =>
    refine local_peek.bind fun next => ?_
    split
    · exact local_fail _
    · exact local_ite (local_advance.bind fun _ => ih) (local_fail _)

end Basic

/-! ## Loops -/

section Loop
variable {step : Step σ β} {m n : Nat} {c : Char} {s u : List Char}

/-- What a turn leaves of the text. -/
def Turn.rest : Turn σ β n → List Char
  | again _ t _ => t
  | done _ t _ => t

/-- Two turns come to the same, but the second one leaves `u` behind what the first one does. -/
inductive Turn.Longer (u : List Char) : Turn σ β m → Turn σ β n → Prop
  | again {state : σ} {t : List Char} {lt : t.length < m} {lt' : (t ++ u).length < n} :
      Longer u (.again state t lt) (.again state (t ++ u) lt')
  | done {b : β} {t : List Char} {le : t.length ≤ m} {le' : (t ++ u).length ≤ n} :
      Longer u (.done b t le) (.done b (t ++ u) le')

/-- A turn of a loop that has come to `state` does not look ahead. -/
def Step.Local (step : Step σ β) (state : σ) : Prop :=
  ∀ ⦃s turn⦄, step state s = .ok turn → turn.rest ≠ [] →
    ∀ u, ∃ turn', step state (s ++ u) = .ok turn' ∧ turn.Longer u turn'

theorem local_loop (h : ∀ state, step.Local state) (state : σ) : (loop step state).Local := by
  rintro s b v ⟨le, hloop⟩ hv u
  rw [loop] at hloop
  -- the text gets shorter with every turn but the last
  induction hk : s.length using Nat.strong_induction_on generalizing state s with
  | _ k ih =>
    rw [loopFrom] at hloop
    split at hloop
    · cases hloop
    · next hstep =>
      cases hloop
      obtain ⟨_, hstep', _ | _⟩ := h state hstep hv u
      exact takes_loop_done hstep'
    · next state' t lt hstep =>
      obtain ⟨le', hloop'⟩ := loopFrom_le (length_le_refl t) hloop
      have ht : t ≠ [] := Takes.rest_ne_nil (r := loop step state') ⟨le', hloop'⟩ hv
      obtain ⟨_, hstep', _ | _⟩ := h state hstep ht u
      exact takes_loop_again hstep' (ih t.length (hk ▸ lt) state' le' hloop' rfl)

/-- A turn that goes on with what a reader takes. -/
theorem Local.again {r : Reader σ} {turn : Turn σ β m} {hm : (c :: s).length ≤ m} (h : r.Local)
    (hturn : Reader.again c s hm r = .ok turn) (hrest : turn.rest ≠ [])
    (hn : (c :: (s ++ u)).length ≤ n) :
    ∃ turn' : Turn σ β n, Reader.again c (s ++ u) hn r = .ok turn' ∧ turn.Longer u turn' := by
  rw [Reader.again] at hturn
  split at hturn
  · cases hturn
  · next state t le hr =>
    cases hturn
    obtain ⟨lt, hagain⟩ := again_of_takes (h ⟨le, hr⟩ hrest u) hn
    exact ⟨_, hagain, .again⟩

end Loop

/-! ## Strings -/

theorem local_codeUnit : codeUnit.Local := by
  rintro s n t ⟨le, h⟩ ht u
  rw [codeUnit.eq_def] at h
  split at h
  · split at h
    · next hn =>
      cases h
      exact takes_codeUnit hn _
    · cases h
  · split at h <;> cases h

theorem local_require (c : Char) : (require c).Local := by
  refine local_peek.bind fun next => ?_
  split
  · exact local_fail _
  · exact local_ite local_advance (local_fail _)

theorem local_unicodeEscape : unicodeEscape.Local := by
  refine local_codeUnit.bind fun v => ?_
  refine local_ite (local_failBefore _) (local_ite ?_ (local_pure _))
  refine (local_require _).bind fun _ => (local_require _).bind fun _ => ?_
  exact local_codeUnit.bind fun w => local_ite (local_pure _) (local_failBefore _)

theorem local_escape : escape.Local := by
  refine local_peek.bind fun next => ?_
  split
  · exact local_fail _
  · exact local_advance.bind fun _ => local_unicodeEscape
  · split
    · exact local_advance.bind fun _ => local_pure _
    · exact local_fail _

/-- A step through what stands between quotes: a quote ends it, a backslash begins an escape, a
control is a fault, and any other character is passed. -/
theorem local_quotedStep {step : Step σ β} {state : σ} {result : β} {escape : Reader σ}
    {pass : Char → σ} {stop : Fault} {fault : Char → List Char → Fault}
    (hnil : step state [] = .error stop)
    (hcons : ∀ c t, step state (c :: t) =
      if c = '"' then .ok (.done result t (length_le_cons c t))
      else if c = '\\' then again c t (length_cons_le_refl c t) escape
      else if isControl c then .error (fault c t)
      else .ok (.again (pass c) t (length_lt_cons c t)))
    (hescape : escape.Local) : step.Local state := by
  intro s turn h hrest u
  cases s with
  | nil =>
    rw [hnil] at h
    cases h
  | cons c s =>
    rw [hcons] at h
    rw [List.cons_append, hcons]
    by_cases hquote : c = '"'
    · rw [if_pos hquote] at h ⊢
      cases h
      exact ⟨_, rfl, .done⟩
    · rw [if_neg hquote] at h ⊢
      by_cases hback : c = '\\'
      · rw [if_pos hback] at h ⊢
        exact hescape.again h hrest _
      · rw [if_neg hback] at h ⊢
        split at h
        · cases h
        · next hcontrol =>
          rw [if_neg hcontrol]
          cases h
          exact ⟨_, rfl, .again⟩

theorem local_literalRest : literalRest.Local :=
  local_loop (fun _ => local_quotedStep rfl (fun _ _ => rfl) local_escape.map) []

/-! ## Scalars -/

theorem local_digits : digits.Local :=
  local_span _

theorem local_wholeDigits : wholeDigits.Local := by
  refine local_peek.bind fun next => ?_
  split
  · exact local_fail _
  · refine local_ite ?_ (local_ite local_digits (local_fail _))
    refine local_advance.bind fun _ => local_peek.bind fun next => ?_
    split
    · exact local_ite (local_fail _) (local_pure _)
    · exact local_pure _

theorem local_someDigits : someDigits.Local := by
  refine local_peek.bind fun next => ?_
  split
  · exact local_fail _
  · exact local_ite local_digits (local_fail _)

theorem local_fractionDigits : fractionDigits.Local :=
  (local_eat _).bind fun _ =>
    local_ite (local_someDigits.bind fun _ => local_pure _) (local_pure _)

theorem local_exponentDigits : exponentDigits.Local := by
  have hdigits (down : Bool) :
      (do return some (down, ← someDigits) : Reader (Option (Bool × List Char))).Local :=
    local_someDigits.bind fun _ => local_pure _
  refine local_peek.bind fun mark => local_ite ?_ (local_pure _)
  refine local_advance.bind fun _ => local_peek.bind fun sign => ?_
  exact local_ite (local_advance.bind fun _ => hdigits _) (hdigits _)

theorem local_numberParts : numberParts.Local :=
  (local_eat _).bind fun _ => local_wholeDigits.bind fun _ => local_fractionDigits.bind fun _ =>
    local_exponentDigits.bind fun _ => local_pure _

theorem local_number : number.Local := by
  refine local_numberParts.bind fun p => ?_
  split
  · exact local_pure _
  split
  · exact local_pure _
  · exact (seals_of_error fun _ => ⟨_, rfl⟩).local

theorem local_scalar : scalar.Local := by
  have hword (w : List Char) (j : Json) : (do advance; word w; return j : Reader Json).Local :=
    local_advance.bind fun _ => (local_word w).bind fun _ => local_pure j
  refine local_peek.bind fun next => ?_
  split
  · exact local_fail _
  · refine local_ite (hword _ _) (local_ite (hword _ _) (local_ite (hword _ _) ?_))
    refine local_ite (local_advance.bind fun _ => local_literalRest.bind fun _ => local_pure _) ?_
    exact local_ite (local_number.bind fun _ => local_pure _) (local_fail _)

end Reader

end Json

end Nullness
