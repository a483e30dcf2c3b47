import Nullness.Json.Tree

/-!
# Skipped values

A value nobody asked for is passed over. Only its brackets, commas, quotes and the
shape of its scalars are looked at: surrogates need not pair up, numbers may be of
any size, and containers may nest to any depth.
-/

namespace Nullness

namespace Json

namespace Reader

/-! ## Scalars -/

/-- The exponent of a number, if it has one. -/
def skipExponent : Reader Unit := do
  let mark ← peek
  if mark = some 'e' ∨ mark = some 'E' then
    advance
    let sign ← peek
    if sign = some '+' ∨ sign = some '-' then advance
    if (← digits).isEmpty then fail .invalidNumber

/-- A number behind its first digit. -/
def skipNumber (first : Char) : Reader Unit := do
  if first = '0' then
    if (← peek).any Char.isDigit then fail .invalidNumber
  else
    let _ ← digits
  if ← eat '.' then
    if (← digits).isEmpty then fail .invalidNumber
  skipExponent

/-- An escape behind its backslash. -/
def skipEscape : Reader Unit := do
  match ← peek with
  | none => fail (.endWithin .string)
  | some c =>
    if c = 'u' then
      advance
      let _ ← codeUnit
    else if (shortEscape? c).isSome then advance
    else fail .invalidEscape

/-- One more character of a skipped string, or its end. -/
def skipStringStep : Step Unit Unit := fun _ s =>
  match s with
  | [] => .error (.here (.endWithin .string) [])
  | c :: t =>
    if c = '"' then .ok (.done () t (length_le_cons c t))
    else if c = '\\' then again c t (length_cons_le_refl c t) skipEscape
    else if isControl c then .error { cause := .controlCharacter, left := byteCount (c :: t) }
    else .ok (.again () t (length_lt_cons c t))

/-- A string behind its opening quote. -/
def skipString : Reader Unit := loop skipStringStep ()

/-- A scalar behind its first character. -/
def skipScalar (first : Char) : Reader Unit := do
  if first = 'n' then word ['u', 'l', 'l']
  else if first = 't' then word ['r', 'u', 'e']
  else if first = 'f' then word ['a', 'l', 's', 'e']
  else if first = '"' then skipString
  else if first.isDigit then skipNumber first
  else
    match ← peek with
    | none => fail .invalidNumber
    | some c =>
      if c.isDigit then
        advance
        skipNumber c
      else fail .invalidNumber

/-- The character begins a scalar. -/
def beginsScalar (c : Char) : Bool :=
  c = 'n' || c = 't' || c = 'f' || c = '"' || c = '-' || c.isDigit

/-! ## Containers -/

/-- What comes next while a value is skipped, and the containers around it. -/
structure Skipping where
  /-- A value comes next, and not what stands behind one. -/
  expecting : Bool
  around : List Bracket

/-- The key and colon before a value, where there have to be any. -/
def skipKey : Bracket → Reader Unit
  | .list => return ()
  | .object => do
    blanks
    match ← peek with
    | none => fail (.endWithin .object)
    | some c =>
      if c = '"' then
        advance
        skipString
        colon
      else fail .keyNotString

/-- What stands behind an opening bracket. -/
def skipOpened (b : Bracket) (around : List Bracket) : Reader Skipping := do
  blanks
  match ← peek with
  | none => fail (.endWithin b.part)
  | some c =>
    if c = b.closing then
      advance
      return ⟨false, around⟩
    else
      skipKey b
      return ⟨true, b :: around⟩

/-- Passes over one scalar, bracket or comma. -/
def skipStep : Step Skipping Unit
  | ⟨false, []⟩, s => done () s
  | ⟨false, b :: around⟩, s =>
    match h : s.dropWhile isBlank with
    | [] => .error (.here (.endWithin b.part) [])
    | c :: t =>
      have le := length_le_of_dropWhile h
      if c = b.closing then again c t le (return ⟨false, around⟩)
      else if c = ',' then
        again c t le do
          skipKey b
          return ⟨true, b :: around⟩
      else .error (.here b.expectedComma (c :: t))
  | ⟨true, around⟩, s =>
    match h : s.dropWhile isBlank with
    | [] => .error (.here (.endWithin .value) [])
    | c :: t =>
      have le := length_le_of_dropWhile h
      if c = '[' then again c t le (skipOpened .list around)
      else if c = '{' then again c t le (skipOpened .object around)
      else if beginsScalar c then
        again c t le do
          skipScalar c
          return ⟨false, around⟩
      else .error (.here .expectedValue (c :: t))

/-- Passes over any value. -/
def skip : Reader Unit := loop skipStep ⟨true, []⟩

end Reader

end Json

end Nullness
