import Nullness.Proofs.Numerals
import Nullness.Text.Hex

/-!
# Spellings of JSON values

A grammar of JSON texts, free of any reader. A value has many spellings: blanks may stand
between tokens, a character of a string may stand for itself or be escaped, and many numbers
are written for one double.

- `Json.Spelling`: the texts of a value.
- `Json.RoughSpelling`: the same, but a number may be out of range.
- `Json.depth`: how deep the containers of a value nest, which is how deep brackets nest in
  each of its spellings.
-/

namespace Nullness

namespace Json

/-! ## Strings -/

/-- The letters that stand for a character behind a backslash. -/
def escapeLetters : List (Char × Char) :=
  [ ('"', '"'), ('\\', '\\'), ('/', '/'), ('b', '\x08'), ('f', '\x0c'), ('n', '\n'),
    ('r', '\r'), ('t', '\t') ]

/-- The texts of a character within a string. -/
inductive CharSpelling : Char → List Char → Prop
  /-- The character itself. -/
  | plain {c : Char} (hquote : c ≠ '"') (hback : c ≠ '\\') (hcontrol : ' ' ≤ c) :
      CharSpelling c [c]
  /-- A letter that stands for it. -/
  | letter {d c : Char} (h : (d, c) ∈ escapeLetters) : CharSpelling c ['\\', d]
  /-- Its code point, in four hexadecimal digits. -/
  | code {c a₁ a₂ a₃ a₄ : Char} (h : Text.hexNat? [a₁, a₂, a₃, a₄] = some c.toNat) :
      CharSpelling c ['\\', 'u', a₁, a₂, a₃, a₄]
  /-- Its two surrogates. -/
  | pair {c a₁ a₂ a₃ a₄ b₁ b₂ b₃ b₄ : Char} (hc : 0x10000 ≤ c.toNat)
      (ha : Text.hexNat? [a₁, a₂, a₃, a₄] = some (0xd800 + (c.toNat - 0x10000) / 0x400))
      (hb : Text.hexNat? [b₁, b₂, b₃, b₄] = some (0xdc00 + (c.toNat - 0x10000) % 0x400)) :
      CharSpelling c ['\\', 'u', a₁, a₂, a₃, a₄, '\\', 'u', b₁, b₂, b₃, b₄]

/-- The texts of characters in a row. -/
inductive CharsSpelling : List Char → List Char → Prop
  | nil : CharsSpelling [] []
  | cons {c : Char} {cs s t : List Char} (h : CharSpelling c s) (ht : CharsSpelling cs t) :
      CharsSpelling (c :: cs) (s ++ t)

/-- The texts of a string, between quotes. -/
inductive Literal : String → List Char → Prop
  | mk {w : String} {s : List Char} (h : CharsSpelling w.toList s) : Literal w ('"' :: (s ++ ['"']))

/-- The character needs no escape. -/
def isPlain (c : Char) : Bool :=
  c != '"' && c != '\\' && decide (' ' ≤ c)

theorem CharsSpelling.plain {cs : List Char} (h : cs.all isPlain = true) :
    CharsSpelling cs cs := by
  induction cs with
  | nil => exact .nil
  | cons c cs ih =>
      rw [List.all_cons, Bool.and_eq_true] at h
      obtain ⟨hc, hcs⟩ := h
      simp only [isPlain, Bool.and_eq_true, bne_iff_ne, decide_eq_true_eq] at hc
      obtain ⟨⟨hquote, hback⟩, hcontrol⟩ := hc
      exact .cons (.plain hquote hback hcontrol) (ih hcs)

/-- A string in which no character needs an escape may be written as it is. -/
theorem Literal.plain {w : String} (h : w.toList.all isPlain = true) :
    Literal w ('"' :: (w.toList ++ ['"'])) :=
  ⟨.plain h⟩

/-! ## Values -/

/-- Only blanks. -/
def Blank (s : List Char) : Prop :=
  ∀ c ∈ s, c ∈ [' ', '\n', '\t', '\r']

instance (s : List Char) : Decidable (Blank s) :=
  List.decidableBAll (· ∈ [' ', '\n', '\t', '\r']) s

section By
variable (means : Numeral → Number → Prop)

mutual

/-- The texts of a value, if a number stands for what `means` says. -/
inductive SpellingBy : Json → List Char → Prop
  | null : SpellingBy .null ['n', 'u', 'l', 'l']
  | true : SpellingBy (.bool true) ['t', 'r', 'u', 'e']
  | false : SpellingBy (.bool false) ['f', 'a', 'l', 's', 'e']
  | num {l : Numeral} {n : Number} (h : means l n) : SpellingBy (.num n) l.text
  | str {w : String} {s : List Char} (h : Literal w s) : SpellingBy (.str w) s
  | arr {es : List Json} {s : List Char} (h : ElementsBy es s) : SpellingBy (.arr es) ('[' :: s)
  | obj {es : List (String × Json)} {s : List Char} (h : EntriesBy es s) :
      SpellingBy (.obj es) ('{' :: s)

/-- The texts of elements behind the opening bracket, up to the closing one. -/
inductive ElementsBy : List Json → List Char → Prop
  | nil {b : List Char} (hb : Blank b) : ElementsBy [] (b ++ [']'])
  | cons {e : Json} {es : List Json} {b s t : List Char} (hb : Blank b) (hs : SpellingBy e s)
      (ht : MoreElementsBy es t) : ElementsBy (e :: es) (b ++ (s ++ t))

/-- The texts of elements behind an element, up to the closing bracket. -/
inductive MoreElementsBy : List Json → List Char → Prop
  | nil {b : List Char} (hb : Blank b) : MoreElementsBy [] (b ++ [']'])
  | cons {e : Json} {es : List Json} {b b' s t : List Char} (hb : Blank b) (hb' : Blank b')
      (hs : SpellingBy e s) (ht : MoreElementsBy es t) :
      MoreElementsBy (e :: es) (b ++ ',' :: (b' ++ (s ++ t)))

/-- The texts of entries behind the opening bracket, up to the closing one. -/
inductive EntriesBy : List (String × Json) → List Char → Prop
  | nil {b : List Char} (hb : Blank b) : EntriesBy [] (b ++ ['}'])
  | cons {k : String} {v : Json} {es : List (String × Json)} {b l b' b'' s t : List Char}
      (hb : Blank b) (hk : Literal k l) (hb' : Blank b') (hb'' : Blank b'') (hs : SpellingBy v s)
      (ht : MoreEntriesBy es t) :
      EntriesBy ((k, v) :: es) (b ++ (l ++ (b' ++ ':' :: (b'' ++ (s ++ t)))))

/-- The texts of entries behind an entry, up to the closing bracket. -/
inductive MoreEntriesBy : List (String × Json) → List Char → Prop
  | nil {b : List Char} (hb : Blank b) : MoreEntriesBy [] (b ++ ['}'])
  | cons {k : String} {v : Json} {es : List (String × Json)} {a b l b' b'' s t : List Char}
      (ha : Blank a) (hb : Blank b) (hk : Literal k l) (hb' : Blank b') (hb'' : Blank b'')
      (hs : SpellingBy v s) (ht : MoreEntriesBy es t) :
      MoreEntriesBy ((k, v) :: es) (a ++ ',' :: (b ++ (l ++ (b' ++ ':' :: (b'' ++ (s ++ t))))))

end

end By

/-- The texts of a value. -/
abbrev Spelling : Json → List Char → Prop := SpellingBy Numeral.Denotes

abbrev Elements : List Json → List Char → Prop := ElementsBy Numeral.Denotes

abbrev MoreElements : List Json → List Char → Prop := MoreElementsBy Numeral.Denotes

abbrev Entries : List (String × Json) → List Char → Prop := EntriesBy Numeral.Denotes

abbrev MoreEntries : List (String × Json) → List Char → Prop := MoreEntriesBy Numeral.Denotes

/-- What a number stands for, and anything if it is out of range. -/
def Numeral.DenotesRoughly (l : Numeral) (n : Number) : Prop := l.OutOfRange ∨ l.Denotes n

/-- The texts of a value in which numbers may be out of range. Those do not stand for anything,
so the value may have any number in their place. -/
abbrev RoughSpelling : Json → List Char → Prop := SpellingBy Numeral.DenotesRoughly

mutual

/-- If more is said of what numbers stand for, more texts are spellings. -/
theorem SpellingBy.mono {means means' : Numeral → Number → Prop}
    (hm : ∀ l n, means l n → means' l n) :
    ∀ {j : Json} {s : List Char}, SpellingBy means j s → SpellingBy means' j s
  | _, _, .null => .null
  | _, _, .true => .true
  | _, _, .false => .false
  | _, _, .num h => .num (hm _ _ h)
  | _, _, .str h => .str h
  | _, _, .arr h => .arr (h.mono hm)
  | _, _, .obj h => .obj (h.mono hm)

theorem ElementsBy.mono {means means' : Numeral → Number → Prop}
    (hm : ∀ l n, means l n → means' l n) :
    ∀ {es : List Json} {s : List Char}, ElementsBy means es s → ElementsBy means' es s
  | _, _, .nil hb => .nil hb
  | _, _, .cons hb hs ht => .cons hb (hs.mono hm) (ht.mono hm)

theorem MoreElementsBy.mono {means means' : Numeral → Number → Prop}
    (hm : ∀ l n, means l n → means' l n) :
    ∀ {es : List Json} {s : List Char}, MoreElementsBy means es s → MoreElementsBy means' es s
  | _, _, .nil hb => .nil hb
  | _, _, .cons hb hb' hs ht => .cons hb hb' (hs.mono hm) (ht.mono hm)

theorem EntriesBy.mono {means means' : Numeral → Number → Prop}
    (hm : ∀ l n, means l n → means' l n) :
    ∀ {es : List (String × Json)} {s : List Char}, EntriesBy means es s → EntriesBy means' es s
  | _, _, .nil hb => .nil hb
  | _, _, .cons hb hk hb' hb'' hs ht => .cons hb hk hb' hb'' (hs.mono hm) (ht.mono hm)

theorem MoreEntriesBy.mono {means means' : Numeral → Number → Prop}
    (hm : ∀ l n, means l n → means' l n) :
    ∀ {es : List (String × Json)} {s : List Char},
      MoreEntriesBy means es s → MoreEntriesBy means' es s
  | _, _, .nil hb => .nil hb
  | _, _, .cons ha hb hk hb' hb'' hs ht => .cons ha hb hk hb' hb'' (hs.mono hm) (ht.mono hm)

end

/-- What is in range is a rough spelling, too. -/
theorem SpellingBy.rough {j : Json} {s : List Char} (h : Spelling j s) : RoughSpelling j s :=
  h.mono fun _ _ hdenotes => Or.inr hdenotes

/-- An integer is spelled by its digits. -/
theorem Spelling.int {n : Int} (h : FitsWord n) : Spelling (.num (.int n)) (toString n).toList :=
  Numeral.text_ofInt n ▸ .num (Numeral.denotes_ofInt h)

/-! ## Depth -/

mutual

/-- How many containers stand one within the other. -/
def depth : Json → Nat
  | .arr es => depthOfElements es + 1
  | .obj es => depthOfEntries es + 1
  | .null | .bool _ | .num _ | .str _ => 0
termination_by structural j => j

/-- The greatest depth of the elements of a list. -/
def depthOfElements : List Json → Nat
  | [] => 0
  | e :: es => max e.depth (depthOfElements es)
termination_by structural es => es

/-- The greatest depth of the values of an object. -/
def depthOfEntries : List (String × Json) → Nat
  | [] => 0
  | (_, v) :: es => max v.depth (depthOfEntries es)
termination_by structural es => es

end

theorem depthOfElements_le_iff {n : Nat} {es : List Json} :
    depthOfElements es ≤ n ↔ ∀ e ∈ es, e.depth ≤ n := by
  induction es with
  | nil => simp [depthOfElements]
  | cons e es ih => rw [depthOfElements, Nat.max_le, ih, List.forall_mem_cons]

theorem depthOfEntries_le_iff {n : Nat} {es : List (String × Json)} :
    depthOfEntries es ≤ n ↔ ∀ e ∈ es, e.2.depth ≤ n := by
  induction es with
  | nil => simp [depthOfEntries]
  | cons e es ih => rw [depthOfEntries, Nat.max_le, ih, List.forall_mem_cons]

end Json

end Nullness
