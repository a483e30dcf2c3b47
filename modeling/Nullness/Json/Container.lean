import Nullness.Json.Literal

/-!
# Lists and objects

What stands between the values of a container: commas, keys, colons and the closing
bracket. Stepping to the next element or key takes something off the text, which is
what loops over containers need.
-/

namespace Nullness

namespace Json

/-- The two kinds of container. -/
inductive Bracket
  | list
  | object
deriving DecidableEq, Repr

namespace Bracket

def opening : Bracket → Char
  | list => '['
  | object => '{'

def closing : Bracket → Char
  | list => ']'
  | object => '}'

/-- The container, as a part of a text that may end. -/
def part : Bracket → Part
  | list => .list
  | object => .object

/-- What is missing where neither a comma nor the closing bracket stands. -/
def expectedComma : Bracket → Cause
  | list => .expectedCommaOrBracket
  | object => .expectedCommaOrBrace

end Bracket

namespace Reader

variable {α β σ : Type}

theorem length_le_behind {s t u : List Char} {c d : Char} (h : (c :: t).length ≤ s.length)
    (h' : t.dropWhile isBlank = d :: u) : (d :: u).length ≤ s.length :=
  Nat.le_trans (Nat.le_trans (length_le_of_dropWhile h') (length_le_cons c t)) h

/-- Steps over the comma before anything but the first value of a container, and
over blanks. False at the closing bracket, which stays. -/
def nextValue (b : Bracket) (first : Bool) : Reader Bool := fun s =>
  match h : s.dropWhile isBlank with
  | [] => .error (.here (.endWithin b.part) [])
  | c :: t =>
    have le := length_le_of_dropWhile h
    if c = b.closing then .ok ⟨false, c :: t, le⟩
    else if first then .ok ⟨true, c :: t, le⟩
    else if c = ',' then
      match h' : t.dropWhile isBlank with
      | [] => .error (.here (.endWithin .value) [])
      | d :: u =>
        if d = b.closing then .error (.here .trailingComma (d :: u))
        else .ok ⟨true, d :: u, length_le_behind le h'⟩
    else .error (.here b.expectedComma (c :: t))

theorem nextValue_lt {b : Bracket} {s t : List Char} {le : t.length ≤ s.length}
    (h : nextValue b false s = .ok ⟨true, t, le⟩) : t.length < s.length := by
  unfold nextValue at h
  split at h
  · cases h
  · rename_i c u hs
    have hle := length_le_of_dropWhile hs
    split at h
    · cases h
    · rw [if_neg (by decide)] at h
      split at h
      · split at h
        · cases h
        · rename_i d v hu
          split at h
          · cases h
          · cases h
            exact Nat.lt_of_le_of_lt (length_le_of_dropWhile hu) hle
      · cases h

/-- A key, up to its closing quote. -/
def quotedKey : Reader String := do
  match ← peek with
  | none => fail (.endWithin .value)
  | some c =>
    if c = '"' then
      advance
      literalRest
    else fail .keyNotString

/-- Steps to the next key of an object and takes it; none at the closing bracket. -/
def nextKey (first : Bool) : Reader (Option String) := do
  if ← nextValue .object first then some <$> quotedKey
  else return none

theorem quotedKey_lt {k : String} {s t : List Char} {le : t.length ≤ s.length}
    (h : quotedKey s = .ok ⟨k, t, le⟩) : t.length < s.length := by
  obtain ⟨_, _, _, _, hp, h⟩ := bind_eq_ok.1 h
  cases hp
  cases s with
  | nil => cases h
  | cons c u =>
    simp only [List.head?_cons] at h
    split at h
    · obtain ⟨_, _, _, le', ha, _⟩ := bind_eq_ok.1 h
      cases ha
      exact Nat.lt_succ_of_le le'
    · cases h

theorem nextKey_lt {first : Bool} {k : String} {s t : List Char} {le : t.length ≤ s.length}
    (h : nextKey first s = .ok ⟨some k, t, le⟩) : t.length < s.length := by
  obtain ⟨more, u, hu, _, _, h⟩ := bind_eq_ok.1 h
  cases more with
  | false => cases h
  | true =>
    change (quotedKey >>= pure ∘ some) u = _ at h
    obtain ⟨_, _, _, _, hq, hp⟩ := bind_eq_ok.1 h
    cases hp
    exact Nat.lt_of_lt_of_le (quotedKey_lt hq) hu

/-- The colon behind a key. -/
def colon : Reader Unit := do
  blanks
  match ← peek with
  | none => fail (.endWithin .object)
  | some c => if c = ':' then advance else fail .expectedColon

/-- Where closing a container gets to, and what stands in the way if it cannot be
closed there. -/
def closeAttempt (b : Bracket) (s : List Char) : List Char × Option Cause :=
  match s.dropWhile isBlank with
  | [] => ([], some (.endWithin b.part))
  | c :: t =>
    if c = b.closing then (t, none)
    else if c = ',' then
      match b with
      | .object => (c :: t, some .trailingComma)
      | .list =>
        let u := t.dropWhile isBlank
        (u, some (if u.head? = some ']' then .trailingComma else .trailingCharacters))
    else (c :: t, some .trailingCharacters)

theorem closeAttempt_length_le (b : Bracket) (s : List Char) :
    (closeAttempt b s).1.length ≤ s.length := by
  unfold closeAttempt
  split
  · simp
  · rename_i c t h
    have le := length_le_of_dropWhile h
    simp only [List.length_cons] at le
    split
    · simp only
      omega
    · split
      · split
        · exact le
        · have := length_dropWhile_le isBlank t
          simp only
          omega
      · exact le

theorem length_le_of_closeAttempt {b : Bracket} {s rest : List Char} {cause : Option Cause}
    (h : closeAttempt b s = (rest, cause)) : rest.length ≤ s.length := by
  have := closeAttempt_length_le b s
  rw [h] at this
  exact this

/-- Takes the closing bracket. -/
def close (b : Bracket) : Reader Unit := fun s =>
  match h : closeAttempt b s with
  | (rest, none) => .ok ⟨(), rest, length_le_of_closeAttempt h⟩
  | (rest, some cause) => .error (.here cause rest)

/-! ## Loops over the values of a container -/

/-- One more element behind those in `acc`, read by `element`, which is told its
index. -/
def elementStep (element : Nat → Reader α) : Step (Array α) (List α) := fun acc s =>
  match h : nextValue .list false s with
  | .error e => .error e
  | .ok ⟨false, t, le⟩ => .ok (.done acc.toList t le)
  | .ok ⟨true, t, _⟩ =>
    match (element acc.size).within (.index acc.size) t with
    | .error e => .error e
    | .ok ⟨a, u, le⟩ => .ok (.again (acc.push a) u (length_lt_of_le_of_lt le (nextValue_lt h)))

/-- The elements of a list, up to the closing bracket. -/
def elements (element : Nat → Reader α) : Reader (List α) := do
  if ← nextValue .list true then
    let a ← (element 0).within (.index 0)
    loop (elementStep element) #[a]
  else return []

/-- One more entry of an object: `entry` reads what stands behind a key and says
whether to go on. Faults on the way to a key are at an entry that has none. -/
def entryStep (entry : String → σ → Reader (σ ⊕ β)) (finish : σ → β) :
    Step (Bool × σ) β := fun (first, state) s =>
  match h : nextKey first s with
  | .error e => .error (e.within .lost)
  | .ok ⟨none, t, le⟩ => .ok (.done (finish state) t le)
  | .ok ⟨some k, t, le⟩ =>
    match entry k state t with
    | .error e => .error e
    | .ok ⟨.inr b, u, le'⟩ => .ok (.done b u (length_le_trans le' le))
    | .ok ⟨.inl state, u, le'⟩ =>
        .ok (.again (false, state) u (length_lt_of_le_of_lt le' (nextKey_lt h)))

/-- The entries of an object, up to the closing bracket or to where `entry` stops. -/
def entries (entry : String → σ → Reader (σ ⊕ β)) (finish : σ → β) (state : σ) : Reader β :=
  loop (entryStep entry finish) (true, state)

end Reader

end Json

end Nullness
