import Nullness.Json.Fault

/-!
# Readers

A reader takes a value off the front of a text, or faults. What it leaves is never
longer than what it got, and its result says so. Loops run as long as each turn
takes something off.

Most faults are at a character that a reader looked at: their place is behind the
first byte of that character, or at the end of the text.
-/

namespace Nullness

namespace Json

/-! ## Lengths of texts -/

theorem length_le_refl (s : List Char) : s.length ≤ s.length := Nat.le_refl _

theorem length_le_trans {s t u : List Char} (h : u.length ≤ t.length) (h' : t.length ≤ s.length) :
    u.length ≤ s.length := Nat.le_trans h h'

theorem length_lt_of_le_of_lt {s t u : List Char} (h : u.length ≤ t.length)
    (h' : t.length < s.length) : u.length < s.length := Nat.lt_of_le_of_lt h h'

theorem length_tail_le (s : List Char) : s.tail.length ≤ s.length :=
  (List.tail_sublist s).length_le

theorem length_le_cons (c : Char) (t : List Char) : t.length ≤ (c :: t).length :=
  Nat.le_succ _

theorem length_cons_le_refl (c : Char) (t : List Char) : (c :: t).length ≤ (c :: t).length :=
  Nat.le_refl _

theorem length_lt_cons (c : Char) (t : List Char) : t.length < (c :: t).length :=
  Nat.lt_succ_self _

theorem length_dropWhile_le (p : Char → Bool) (s : List Char) :
    (s.dropWhile p).length ≤ s.length :=
  (List.dropWhile_sublist p).length_le

theorem length_le_of_dropWhile {p : Char → Bool} {s t : List Char} {c : Char}
    (h : s.dropWhile p = c :: t) : (c :: t).length ≤ s.length :=
  h ▸ length_dropWhile_le p s

/-! ## Readers -/

/-- A value taken off a text of `n` characters, and what is left of the text. -/
structure Taken (α : Type) (n : Nat) where
  value : α
  rest : List Char
  le : rest.length ≤ n

/-- Takes a value off the front of a text. -/
def Reader (α : Type) : Type :=
  (s : List Char) → Except Fault (Taken α s.length)

namespace Reader

variable {α β σ : Type}

instance : Monad Reader where
  pure a s := .ok ⟨a, s, length_le_refl s⟩
  bind r f s :=
    match r s with
    | .error e => .error e
    | .ok ⟨a, t, h⟩ =>
      match f a t with
      | .error e => .error e
      | .ok ⟨b, u, h'⟩ => .ok ⟨b, u, length_le_trans h' h⟩

/-- Faults with a given number of bytes left. -/
def failLeft (cause : Cause) (left : Nat) : Reader α := fun _ =>
  .error { cause, left }

/-- Faults at the next character. -/
def fail (cause : Cause) : Reader α := fun s =>
  .error (.here cause s)

/-- Faults before the next character. -/
def failBefore (cause : Cause) : Reader α := fun s =>
  .error { cause, left := byteCount s }

/-- Says where faults of `r` are. -/
def within (seg : Segment) (r : Reader α) : Reader α := fun s =>
  match r s with
  | .error e => .error (e.within seg)
  | .ok t => .ok t

/-- The next character, which stays. -/
def peek : Reader (Option Char) := fun s =>
  .ok ⟨s.head?, s, length_le_refl s⟩

/-- Drops the next character. -/
def advance : Reader Unit := fun s =>
  .ok ⟨(), s.tail, length_tail_le s⟩

/-- Drops the next character if it is `c`, and says whether it was. -/
def eat (c : Char) : Reader Bool := fun s =>
  if s.head? = some c then .ok ⟨true, s.tail, length_tail_le s⟩
  else .ok ⟨false, s, length_le_refl s⟩

/-- Takes the characters in front that satisfy `p`. -/
def span (p : Char → Bool) : Reader (List Char) := fun s =>
  .ok ⟨s.takeWhile p, s.dropWhile p, length_dropWhile_le p s⟩

/-! ## What a reader does to a text -/

@[simp] theorem pure_apply (a : α) (s : List Char) :
    (pure a : Reader α) s = .ok ⟨a, s, length_le_refl s⟩ := rfl

@[simp] theorem peek_apply (s : List Char) : peek s = .ok ⟨s.head?, s, length_le_refl s⟩ := rfl

@[simp] theorem advance_cons (c : Char) (s : List Char) :
    advance (c :: s) = .ok ⟨(), s, length_le_cons c s⟩ := rfl

@[simp] theorem fail_apply (cause : Cause) (s : List Char) :
    (fail cause : Reader α) s = .error (.here cause s) := rfl

/-- Two readers in a row succeed when the first does, and the second on what it leaves. -/
theorem bind_eq_ok {r : Reader α} {f : α → Reader β} {s u : List Char} {b : β}
    {le : u.length ≤ s.length} :
    (r >>= f) s = .ok ⟨b, u, le⟩ ↔
      ∃ a t h h', r s = .ok ⟨a, t, h⟩ ∧ f a t = .ok ⟨b, u, h'⟩ := by
  constructor
  · intro h
    simp only [bind] at h
    split at h
    · cases h
    · rename_i a t ht hr
      split at h
      · cases h
      · rename_i c v hv hf
        cases h
        exact ⟨a, t, ht, hv, hr, hf⟩
  · rintro ⟨a, t, h, h', hr, hf⟩
    simp only [bind, hr, hf]

/-! ## Blanks -/

/-- What may stand between two tokens. -/
def isBlank (c : Char) : Bool :=
  c = ' ' || c = '\n' || c = '\t' || c = '\r'

/-- Drops blanks. -/
def blanks : Reader Unit := fun s =>
  .ok ⟨(), s.dropWhile isBlank, length_dropWhile_le isBlank s⟩

/-! ## Loops -/

/-- What a turn of a loop comes to: a new state with less text, or a result. -/
inductive Turn (σ β : Type) (n : Nat)
  | again (state : σ) (rest : List Char) (lt : rest.length < n)
  | done (value : β) (rest : List Char) (le : rest.length ≤ n)

/-- One turn of a loop. -/
def Step (σ β : Type) : Type :=
  σ → (s : List Char) → Except Fault (Turn σ β s.length)

/-- Turns a loop until it has a result, starting at a text of at most `n` characters. -/
def loopFrom (step : Step σ β) (n : Nat) (state : σ) (s : List Char) (h : s.length ≤ n) :
    Except Fault (Taken β n) :=
  match step state s with
  | .error e => .error e
  | .ok (.done b t le) => .ok ⟨b, t, Nat.le_trans le h⟩
  | .ok (.again state t lt) => loopFrom step n state t (Nat.le_of_lt (Nat.lt_of_lt_of_le lt h))
termination_by s.length

/-- Turns a loop until it has a result. -/
def loop (step : Step σ β) (state : σ) : Reader β := fun s =>
  loopFrom step s.length state s (length_le_refl s)

/-- Goes on with what `r` takes off the text behind a character. -/
def again {n : Nat} (c : Char) (t : List Char) (h : (c :: t).length ≤ n) (r : Reader σ) :
    Except Fault (Turn σ β n) :=
  match r t with
  | .error e => .error e
  | .ok ⟨state, u, le⟩ =>
      .ok (.again state u (Nat.lt_of_le_of_lt le (Nat.lt_of_lt_of_le (length_lt_cons c t) h)))

/-- Ends a loop where it is. -/
def done (b : β) (s : List Char) : Except Fault (Turn σ β s.length) :=
  .ok (.done b s (length_le_refl s))

end Reader

end Json

end Nullness
