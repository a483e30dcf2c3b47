import Mathlib.Data.List.TakeWhile
import Nullness.Json.Expect
import Nullness.Proofs.Spelling

/-!
# What readers take

A reader takes the spelling of what it reads off the front of a text, and leaves the rest. This
module is about the tokens: blanks, words, strings and integers, and about loops.

- `Json.Reader.Takes`: what a reader takes off a text, and what it leaves.
- `Json.Reader.takes_literalRest`, `Json.Reader.takes_number`: strings in any spelling, and
  integers of 64 bits.
-/

namespace Nullness

namespace Json

namespace Reader

variable {α β σ : Type}

/-- `r` takes `a` off the text `s` and leaves `t`. -/
def Takes (r : Reader α) (s : List Char) (a : α) (t : List Char) : Prop :=
  ∃ le, r s = .ok ⟨a, t, le⟩

/-! ## Readers in a row -/

section Basic
variable {r : Reader α} {f : α → Reader β} {s t u : List Char} {a : α} {b : β} {c : Char}

theorem takes_pure (a : α) (s : List Char) : (pure a : Reader α).Takes s a s :=
  ⟨_, rfl⟩

/-- What is taken, and what is left, are settled by the text. -/
theorem Takes.unique {a' : α} {t' : List Char} (h : r.Takes s a t) (h' : r.Takes s a' t') :
    a = a' ∧ t = t' := by
  obtain ⟨le, h⟩ := h
  obtain ⟨le', h'⟩ := h'
  cases h.symm.trans h'
  exact ⟨rfl, rfl⟩

theorem Takes.bind (h : r.Takes s a t) (h' : (f a).Takes t b u) : (r >>= f).Takes s b u := by
  obtain ⟨le, hr⟩ := h
  obtain ⟨le', hf⟩ := h'
  exact ⟨length_le_trans le' le, bind_eq_ok.mpr ⟨a, t, le, le', hr, hf⟩⟩

theorem Takes.map {g : α → β} (h : r.Takes s a t) : (g <$> r).Takes s (g a) t :=
  h.bind (f := pure ∘ g) (takes_pure (g a) t)

theorem Takes.within {seg : Segment} (h : r.Takes s a t) : (r.within seg).Takes s a t := by
  obtain ⟨le, hr⟩ := h
  refine ⟨le, ?_⟩
  rw [Reader.within, hr]

theorem takes_peek (s : List Char) : peek.Takes s s.head? s :=
  ⟨_, rfl⟩

theorem takes_advance (c : Char) (s : List Char) : advance.Takes (c :: s) () s :=
  ⟨_, rfl⟩

theorem takes_eat (c : Char) (s : List Char) : (eat c).Takes (c :: s) true s :=
  ⟨_, if_pos rfl⟩

theorem takes_eat_of_ne (h : s.head? ≠ some c) : (eat c).Takes s false s :=
  ⟨_, if_neg h⟩

/-- To look at the next character changes nothing. -/
theorem peek_bind_apply (f : Option Char → Reader β) (s : List Char) :
    (peek >>= f) s = f s.head? s := by
  simp only [bind, peek_apply]
  cases f s.head? s <;> rfl

/-- A reader that looks at the next character goes on with what it saw. -/
theorem takes_peek_bind {f : Option Char → Reader β} (h : (f s.head?).Takes s b u) :
    (peek >>= f).Takes s b u :=
  (takes_peek s).bind h

theorem takes_advance_bind {f : Unit → Reader β} (h : (f ()).Takes s b u) :
    (advance >>= f).Takes (c :: s) b u :=
  (takes_advance c s).bind h

theorem takes_word (w s : List Char) : (word w).Takes (w ++ s) () s := by
  induction w with
  | nil => exact takes_pure () s
  | cons c w ih =>
      refine takes_peek_bind ?_
      rw [List.cons_append, List.head?_cons]
      dsimp only
      rw [if_pos rfl]
      exact takes_advance_bind ih

end Basic

/-! ## Blanks -/

section Span
variable {p : Char → Bool} {s t : List Char}

/-- A run of characters ends where one does not belong to it. -/
theorem span_append (hs : ∀ c ∈ s, p c = true) (ht : ∀ c, t.head? = some c → p c = false) :
    (s ++ t).takeWhile p = s ∧ (s ++ t).dropWhile p = t := by
  rw [List.takeWhile_append_of_pos hs, List.dropWhile_append_of_pos hs]
  cases t with
  | nil => simp
  | cons c t =>
      have hc : ¬ p c = true := by simp [ht c rfl]
      rw [List.takeWhile_cons_of_neg hc, List.dropWhile_cons_of_neg hc, List.append_nil]
      exact ⟨rfl, rfl⟩

theorem takes_span (hs : ∀ c ∈ s, p c = true) (ht : ∀ c, t.head? = some c → p c = false) :
    (span p).Takes (s ++ t) s t := by
  obtain ⟨htake, hdrop⟩ := span_append hs ht
  have hle := length_dropWhile_le p (s ++ t)
  rw [hdrop] at hle
  refine ⟨hle, ?_⟩
  simp only [span, htake, hdrop]

end Span

/-- The text does not begin with a blank. -/
def Solid (s : List Char) : Prop :=
  ∀ c, s.head? = some c → isBlank c = false

section Blanks
variable {b s t : List Char} {c : Char} {f : Unit → Reader β} {v : β}

theorem isBlank_of_blank (hb : Blank b) : ∀ c ∈ b, isBlank c = true := by
  intro c hc
  simpa [isBlank, or_assoc] using hb c hc

theorem dropWhile_blank (hb : Blank b) (hs : Solid s) : (b ++ s).dropWhile isBlank = s :=
  (span_append (isBlank_of_blank hb) hs).2

theorem takes_blanks (hb : Blank b) (hs : Solid s) : blanks.Takes (b ++ s) () s := by
  have hdrop := dropWhile_blank hb hs
  have hle := length_dropWhile_le isBlank (b ++ s)
  rw [hdrop] at hle
  refine ⟨hle, ?_⟩
  simp only [blanks, hdrop]

theorem takes_blanks_bind (hb : Blank b) (hs : Solid s) (h : (f ()).Takes s v t) :
    (blanks >>= f).Takes (b ++ s) v t :=
  (takes_blanks hb hs).bind h

theorem solid_cons (h : isBlank c = false) (s : List Char) : Solid (c :: s) := by
  rintro d ⟨⟩
  exact h

end Blanks

/-! ## Loops -/

section Loops
variable {step : Step σ β} {state state' : σ} {s t u : List Char} {b : β}

/-- How much text a loop was started with does not matter for what it takes. -/
theorem loopFrom_le {m n : Nat} {hm : s.length ≤ m} (hn : s.length ≤ n) {le : u.length ≤ m}
    (h : loopFrom step m state s hm = .ok ⟨b, u, le⟩) :
    ∃ le', loopFrom step n state s hn = .ok ⟨b, u, le'⟩ := by
  induction hk : s.length using Nat.strong_induction_on generalizing state s with
  | _ k ih =>
      rw [loopFrom] at h ⊢
      split at h
      · cases h
      · rename_i le' hstep
        cases h
        exact ⟨Nat.le_trans le' hn, rfl⟩
      · rename_i state' t lt hstep
        exact ih t.length (hk ▸ lt) _ h rfl

theorem takes_loop_done {le : t.length ≤ s.length} (h : step state s = .ok (.done b t le)) :
    (loop step state).Takes s b t := by
  refine ⟨le, ?_⟩
  rw [loop, loopFrom, h]

theorem takes_loop_again {lt : t.length < s.length} (h : step state s = .ok (.again state' t lt))
    (ht : (loop step state').Takes t b u) : (loop step state).Takes s b u := by
  obtain ⟨le, ht⟩ := ht
  obtain ⟨le', ht⟩ := loopFrom_le (Nat.le_of_lt lt) ht
  refine ⟨le', ?_⟩
  rw [loop, loopFrom, h]
  exact ht

end Loops

/-! ## Strings -/

section Literals
variable {c d : Char} {s t u : List Char}

theorem takes_codeUnit {a₁ a₂ a₃ a₄ : Char} {n : Nat} (h : Text.hexNat? [a₁, a₂, a₃, a₄] = some n)
    (t : List Char) : codeUnit.Takes (a₁ :: a₂ :: a₃ :: a₄ :: t) n t := by
  refine ⟨length_le_cons₄ a₁ a₂ a₃ a₄ t, ?_⟩
  simp only [codeUnit, h]

theorem takes_require (c : Char) (t : List Char) : (require c).Takes (c :: t) () t := by
  refine takes_peek_bind ?_
  rw [List.head?_cons]
  dsimp only
  rw [if_pos rfl]
  exact takes_advance c t

/-- A character is no surrogate. -/
theorem not_surrogate (c : Char) : isTrailing c.toNat = false ∧ isLeading c.toNat = false := by
  have hvalid : c.toNat < 0xd800 ∨ 0xdfff < c.toNat ∧ c.toNat < 0x110000 := c.valid
  simp only [isTrailing, isLeading, Bool.and_eq_false_iff, decide_eq_false_iff_not]
  omega

theorem takes_unicodeEscape_code {a₁ a₂ a₃ a₄ : Char}
    (h : Text.hexNat? [a₁, a₂, a₃, a₄] = some c.toNat) (t : List Char) :
    unicodeEscape.Takes (a₁ :: a₂ :: a₃ :: a₄ :: t) c t := by
  obtain ⟨htrailing, hleading⟩ := not_surrogate c
  refine (takes_codeUnit h t).bind ?_
  rw [htrailing, hleading, Char.ofNat_toNat]
  exact takes_pure c t

theorem takes_unicodeEscape_pair {a₁ a₂ a₃ a₄ b₁ b₂ b₃ b₄ : Char} (hc : 0x10000 ≤ c.toNat)
    (ha : Text.hexNat? [a₁, a₂, a₃, a₄] = some (0xd800 + (c.toNat - 0x10000) / 0x400))
    (hb : Text.hexNat? [b₁, b₂, b₃, b₄] = some (0xdc00 + (c.toNat - 0x10000) % 0x400))
    (t : List Char) :
    unicodeEscape.Takes (a₁ :: a₂ :: a₃ :: a₄ :: '\\' :: 'u' :: b₁ :: b₂ :: b₃ :: b₄ :: t) c t := by
  have hlt : c.toNat < 0x110000 := by
    have hvalid : c.toNat < 0xd800 ∨ 0xdfff < c.toNat ∧ c.toNat < 0x110000 := c.valid
    omega
  have hleading : isLeading (0xd800 + (c.toNat - 0x10000) / 0x400) = true := by
    simp only [isLeading, Bool.and_eq_true, decide_eq_true_eq]
    omega
  have hnot : isTrailing (0xd800 + (c.toNat - 0x10000) / 0x400) = false := by
    simp only [isTrailing, Bool.and_eq_false_iff, decide_eq_false_iff_not]
    omega
  have htrailing : isTrailing (0xdc00 + (c.toNat - 0x10000) % 0x400) = true := by
    simp only [isTrailing, Bool.and_eq_true, decide_eq_true_eq]
    omega
  have hchar : ofSurrogates (0xd800 + (c.toNat - 0x10000) / 0x400)
      (0xdc00 + (c.toNat - 0x10000) % 0x400) = c := by
    have hcode : 0x10000 + (0xd800 + (c.toNat - 0x10000) / 0x400 - 0xd800) * 0x400 +
        (0xdc00 + (c.toNat - 0x10000) % 0x400 - 0xdc00) = c.toNat := by omega
    rw [ofSurrogates, hcode, Char.ofNat_toNat]
  refine (takes_codeUnit ha _).bind ?_
  rw [hnot, hleading]
  refine (takes_require '\\' _).bind ((takes_require 'u' _).bind ((takes_codeUnit hb t).bind ?_))
  rw [htrailing, hchar]
  exact takes_pure c t

theorem shortEscape?_of_mem (h : (d, c) ∈ escapeLetters) : d ≠ 'u' ∧ shortEscape? d = some c := by
  have hall : ∀ e ∈ escapeLetters, e.1 ≠ 'u' ∧ shortEscape? e.1 = some e.2 := by decide
  exact hall (d, c) h

theorem takes_escape_letter (h : (d, c) ∈ escapeLetters) (t : List Char) :
    escape.Takes (d :: t) c t := by
  obtain ⟨hu, hshort⟩ := shortEscape?_of_mem h
  refine takes_peek_bind ?_
  rw [List.head?_cons]
  split
  · next heq => cases heq
  · next heq => exact absurd (Option.some.inj heq) hu
  · next e _ heq =>
    cases heq
    rw [hshort]
    exact takes_advance_bind (takes_pure c t)

theorem takes_escape_unicode (h : unicodeEscape.Takes s c t) : escape.Takes ('u' :: s) c t :=
  takes_peek_bind (takes_advance_bind h)

theorem again_of_takes {r : Reader σ} {state : σ} {n : Nat} (h : r.Takes s state t)
    (hn : (c :: s).length ≤ n) :
    ∃ lt, (again c s hn r : Except Fault (Turn σ β n)) = .ok (.again state t lt) := by
  obtain ⟨le, hr⟩ := h
  refine ⟨Nat.lt_of_le_of_lt le (Nat.lt_of_lt_of_le (length_lt_cons c s) hn), ?_⟩
  rw [again, hr]

/-- A character of a literal is taken in one turn, however it is written. -/
theorem literalStep_of_spelling (h : CharSpelling c s) (acc t : List Char) :
    ∃ lt, literalStep acc (s ++ t) = .ok (.again (c :: acc) t lt) := by
  have hescape : ∀ u, escape.Takes u c t →
      ∃ lt, literalStep acc ('\\' :: u) = .ok (.again (c :: acc) t lt) := by
    intro u hu
    exact again_of_takes hu.map (length_cons_le_refl '\\' u)
  cases h with
  | plain hquote hback hcontrol =>
      refine ⟨length_lt_cons c t, ?_⟩
      have hnot : isControl c = false := decide_eq_false (Char.not_lt.mpr hcontrol)
      simp only [List.cons_append, List.nil_append, literalStep, if_neg hquote, if_neg hback, hnot]
      rfl
  | letter hd => exact hescape _ (takes_escape_letter hd t)
  | code hx => exact hescape _ (takes_escape_unicode (takes_unicodeEscape_code hx t))
  | pair hc ha hb => exact hescape _ (takes_escape_unicode (takes_unicodeEscape_pair hc ha hb t))

theorem takes_literalLoop {cs : List Char} (h : CharsSpelling cs s) (acc t : List Char) :
    (loop literalStep acc).Takes (s ++ '"' :: t) (String.ofList (acc.reverse ++ cs)) t := by
  induction h generalizing acc with
  | nil =>
      rw [List.append_nil]
      exact takes_loop_done rfl
  | @cons c cs s₁ s₂ hc _ ih =>
      obtain ⟨lt, hstep⟩ := literalStep_of_spelling hc acc (s₂ ++ '"' :: t)
      rw [List.append_assoc]
      have hrest := ih (c :: acc)
      rw [List.reverse_cons, List.append_assoc] at hrest
      exact takes_loop_again hstep hrest

/-- Behind its opening quote, a string is taken up to its closing one. -/
theorem takes_literalRest {w : String} (h : CharsSpelling w.toList s) (t : List Char) :
    literalRest.Takes (s ++ '"' :: t) w t := by
  have htakes := takes_literalLoop h [] t
  rw [List.reverse_nil, List.nil_append, String.ofList_toList] at htakes
  exact htakes

end Literals

/-! ## Numbers -/

/-- The text does not go on with a number. -/
def Breaks (s : List Char) : Prop :=
  ∀ c, s.head? = some c → c.isDigit = false ∧ c ≠ '.' ∧ c ≠ 'e' ∧ c ≠ 'E'

section Numbers
variable {s t : List Char}

/-- The text does not go on with a digit. -/
def EndsDigits (s : List Char) : Prop :=
  ∀ c, s.head? = some c → c.isDigit = false

theorem takes_digits {ds : List Char} (hds : ∀ c ∈ ds, c.isDigit = true) (ht : EndsDigits t) :
    digits.Takes (ds ++ t) ds t :=
  takes_span hds ht

theorem takes_wholeDigits (l : Numeral) (ht : EndsDigits t) :
    wholeDigits.Takes (l.whole ++ t) l.whole t := by
  obtain ⟨c, ds, hcons⟩ := List.exists_cons_of_ne_nil l.whole_ne
  refine takes_peek_bind ?_
  rw [hcons, List.cons_append, List.head?_cons]
  dsimp only
  by_cases h0 : c = '0'
  · -- a zero stands alone
    have halone := l.whole_zero (by rw [hcons, h0, List.head?_cons])
    obtain ⟨rfl, rfl⟩ := List.cons.inj (hcons.symm.trans halone)
    rw [if_pos rfl]
    refine takes_advance_bind (takes_peek_bind ?_)
    rw [List.nil_append]
    cases ht' : t.head? with
    | none => exact takes_pure ['0'] t
    | some d =>
        dsimp only
        rw [ht d ht']
        exact takes_pure ['0'] t
  · have hall : ∀ d ∈ c :: ds, d.isDigit = true := hcons ▸ l.whole_isDigit
    rw [if_neg h0, if_pos (hall c List.mem_cons_self)]
    exact takes_digits hall ht

theorem takes_someDigits {ds : List Char} (hne : ds ≠ []) (hds : ∀ c ∈ ds, c.isDigit = true)
    (ht : EndsDigits t) : someDigits.Takes (ds ++ t) ds t := by
  obtain ⟨c, cs, rfl⟩ := List.exists_cons_of_ne_nil hne
  refine takes_peek_bind ?_
  rw [List.cons_append, List.head?_cons]
  dsimp only
  rw [if_pos (hds c List.mem_cons_self)]
  exact takes_digits hds ht

theorem takes_fractionDigits (l : Numeral) (ht : EndsDigits t) (hpoint : t.head? ≠ some '.') :
    fractionDigits.Takes (l.fractionText ++ t) l.fraction t := by
  rw [Numeral.fractionText]
  cases hfraction : l.fraction with
  | none => exact (takes_eat_of_ne hpoint).bind (takes_pure none t)
  | some ds =>
      have hdigits := takes_someDigits (l.fraction_ne ds hfraction)
        (l.fraction_isDigit ds hfraction) ht
      exact (takes_eat '.' (ds ++ t)).bind (hdigits.bind (takes_pure (some ds) t))

/-- The sign of an exponent and its digits, behind the mark. -/
theorem takes_exponentDigits_some (e : Exponent) (ht : EndsDigits t) :
    exponentDigits.Takes (e.text ++ t) (some (decide (e.sign = ['-']), e.digits)) t := by
  have hdigits (down : Bool) : (do return some (down, ← someDigits) : Reader _).Takes
      (e.digits ++ t) (some (down, e.digits)) t :=
    (takes_someDigits e.digits_ne e.digits_isDigit ht).bind (takes_pure _ t)
  have hmark : some e.mark = some 'e' ∨ some e.mark = some 'E' := by
    simpa using e.mark_mem
  obtain ⟨d, ds, hcons⟩ := List.exists_cons_of_ne_nil e.digits_ne
  have hd : d.isDigit = true := e.digits_isDigit d (by rw [hcons]; exact List.mem_cons_self)
  refine takes_peek_bind ?_
  rw [Exponent.text, List.cons_append, List.head?_cons, if_pos hmark, List.append_assoc]
  refine takes_advance_bind (takes_peek_bind ?_)
  have hsign := e.sign_mem
  simp only [List.mem_cons, List.not_mem_nil, or_false] at hsign
  rcases hsign with hsign | hsign | hsign
  · -- without a sign, a digit is what is seen
    have hnot : ¬ (some d = some '+' ∨ some d = some '-') := by
      rintro (h | h) <;> cases h <;> cases hd
    have hhead : (e.digits ++ t).head? = some d := by rw [hcons, List.cons_append, List.head?_cons]
    have hdown : decide (some d = some '-') = false :=
      decide_eq_false fun h => hnot (Or.inr h)
    rw [hsign, List.nil_append, hhead, if_neg hnot, hdown]
    exact hdigits false
  · rw [hsign]
    exact takes_advance_bind (hdigits false)
  · rw [hsign]
    exact takes_advance_bind (hdigits true)

theorem takes_exponentDigits (l : Numeral) (ht : Breaks t) :
    exponentDigits.Takes (l.exponentText ++ t) l.parts.exponent t := by
  rw [Numeral.exponentText, Numeral.parts]
  cases l.exponent with
  | some e => exact takes_exponentDigits_some e fun c hc => (ht c hc).1
  | none =>
      refine takes_peek_bind ?_
      have hnot : ¬ (t.head? = some 'e' ∨ t.head? = some 'E') := by
        rintro (h | h)
        · exact (ht 'e' h).2.2.1 rfl
        · exact (ht 'E' h).2.2.2 rfl
      rw [Option.elim_none, List.nil_append, if_neg hnot]
      exact takes_pure none t

/-- Behind its whole digits, a number does not go on with digits. -/
theorem endsDigits_exponentText (l : Numeral) (ht : Breaks t) :
    EndsDigits (l.exponentText ++ t) ∧ (l.exponentText ++ t).head? ≠ some '.' := by
  rw [Numeral.exponentText]
  cases l.exponent with
  | none => exact ⟨fun c hc => (ht c hc).1, fun h => (ht '.' h).2.1 rfl⟩
  | some e =>
      have hmark := e.mark_mem
      simp only [List.mem_cons, List.not_mem_nil, or_false] at hmark
      have hhead : (e.text ++ t).head? = some e.mark := rfl
      rw [Option.elim_some, EndsDigits, hhead]
      rcases hmark with hmark | hmark <;> rw [hmark] <;> exact ⟨by rintro _ ⟨⟩; decide, by decide⟩

theorem endsDigits_fractionText (l : Numeral) (ht : Breaks t) :
    EndsDigits (l.fractionText ++ (l.exponentText ++ t)) := by
  rw [Numeral.fractionText]
  cases l.fraction with
  | none => exact (endsDigits_exponentText l ht).1
  | some ds =>
      rintro _ ⟨⟩
      decide

theorem takes_sign (l : Numeral) (t : List Char) :
    (eat '-').Takes (l.text ++ t) l.negative
      (l.whole ++ (l.fractionText ++ (l.exponentText ++ t))) := by
  rw [Numeral.text]
  simp only [List.append_assoc]
  cases l.negative with
  | true => exact takes_eat '-' _
  | false =>
      refine takes_eat_of_ne ?_
      obtain ⟨c, ds, hcons⟩ := List.exists_cons_of_ne_nil l.whole_ne
      have hdigit : c.isDigit = true := l.whole_isDigit c (hcons ▸ List.mem_cons_self)
      simp only [Bool.false_eq_true, ↓reduceIte, List.nil_append, hcons, List.cons_append,
        List.head?_cons]
      rintro ⟨⟩
      cases hdigit

/-- The parts of a number are found. -/
theorem takes_numberParts (l : Numeral) (ht : Breaks t) :
    numberParts.Takes (l.text ++ t) l.parts t := by
  have hends := endsDigits_exponentText l ht
  refine (takes_sign l t).bind ((takes_wholeDigits l (endsDigits_fractionText l ht)).bind ?_)
  refine (takes_fractionDigits l hends.1 hends.2).bind ((takes_exponentDigits l ht).bind ?_)
  exact takes_pure l.parts t

/-- **Numbers.** A number is taken as what it stands for. -/
theorem takes_number {l : Numeral} {n : Number} (h : l.Denotes n) (ht : Breaks t) :
    number.Takes (l.text ++ t) n t := by
  refine (takes_numberParts l ht).bind ?_
  cases h with
  | integer hint =>
      rw [Numeral.integer?_parts.mpr ⟨hint, rfl⟩]
      exact takes_pure _ t
  | double hint hbits =>
      rw [Numeral.integer?_parts_eq_none hint, hbits]
      exact takes_pure _ t

end Numbers

end Reader

end Json

end Nullness
