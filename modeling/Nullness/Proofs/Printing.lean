import Nullness.Json.Printer
import Nullness.Proofs.Taking

/-!
# What is printed is a spelling

The printer breaks lines and escapes what has to be escaped. What comes out is one of the
spellings of the value, as long as its numbers are integers of 64 bits. Of doubles nothing is
said.

- `Json.charSpelling_printChar`, `Json.literal_printString`: characters and strings.
- `Json.Printable`: values without doubles.
- `Json.Printable.spelling`: what is printed of them.
-/

namespace Nullness

namespace Json

/-! ## Strings -/

/-- A control is escaped by two zeros and the two digits of its code point. -/
theorem unicodeEscape_eq : ∀ n < 32, ∃ a b, unicodeEscape n = ['\\', 'u', '0', '0', a, b] ∧
    Text.hexNat? ['0', '0', a, b] = some n := by
  have hdigits : ∀ n < 32,
      unicodeEscape n = ['\\', 'u', '0', '0', (n / 16).digitChar, (n % 16).digitChar] ∧
        Text.hexNat? ['0', '0', (n / 16).digitChar, (n % 16).digitChar] = some n := by decide
  intro n hn
  exact ⟨_, _, hdigits n hn⟩

/-- However a character is printed, it is spelled. -/
theorem charSpelling_printChar (c : Char) : CharSpelling c (printChar c) := by
  rw [printChar]
  -- the characters that a letter stands for, in the order in which they are tried
  by_cases hquote : c = '"'
  · subst hquote
    exact .letter (by decide)
  by_cases hback : c = '\\'
  · subst hback
    exact .letter (by decide)
  rw [if_neg hquote, if_neg hback]
  split
  · next h => exact h ▸ .letter (by decide)
  split
  · next h => exact h ▸ .letter (by decide)
  split
  · next h => exact h ▸ .letter (by decide)
  split
  · next h => exact h ▸ .letter (by decide)
  split
  · next h => exact h ▸ .letter (by decide)
  split
  · next hcontrol =>
    obtain ⟨a, b, hescape, hvalue⟩ := unicodeEscape_eq c.toNat hcontrol
    rw [hescape]
    exact .code hvalue
  · next hcontrol => exact .plain hquote hback (Char.not_lt.mp hcontrol)

theorem charsSpelling_printChars (cs : List Char) : CharsSpelling cs (cs.flatMap printChar) := by
  induction cs with
  | nil => exact .nil
  | cons c cs ih => exact .cons (charSpelling_printChar c) ih

theorem literal_printString (s : String) : Literal s (printString s) :=
  .mk (charsSpelling_printChars s.toList)

/-! ## Values -/

/-- The numbers of a value are integers of 64 bits. -/
inductive Printable : Json → Prop
  | null : Printable .null
  | bool (b : Bool) : Printable (.bool b)
  | int {n : Int} (h : FitsWord n) : Printable (.num (.int n))
  | str (s : String) : Printable (.str s)
  | arr {es : List Json} (h : ∀ e ∈ es, Printable e) : Printable (.arr es)
  | obj {es : List (String × Json)} (h : ∀ e ∈ es, Printable e.2) : Printable (.obj es)

theorem blank_newline (depth : Nat) : Blank (newline depth) := by
  intro c hc
  rcases List.mem_cons.mp hc with rfl | hc
  · decide
  · rw [List.eq_of_mem_replicate hc]
    decide

theorem blank_nil : Blank [] :=
  nofun

theorem print_int (n : Int) : (Number.int n).print = (toString n).toList := by
  cases n with
  | ofNat n => exact (toList_toString_ofNat n).symm
  | negSucc n => exact (toList_toString_negSucc n).symm

section Containers
variable {depth : Nat}

/-- Elements behind the first one, and the end of the list. -/
theorem moreElements_print {es : List Json} (h : ∀ e ∈ es, Spelling e (e.print depth))
    {b : List Char} (hb : Blank b) : MoreElements es (printElements depth es ++ (b ++ [']'])) := by
  induction es with
  | nil => exact .nil hb
  | cons e es ih =>
      obtain ⟨he, hes⟩ := List.forall_mem_cons.mp h
      rw [printElements]
      simp only [List.cons_append, List.append_assoc]
      exact .cons blank_nil (blank_newline depth) he (ih hes)

/-- Entries behind the first one, and the end of the object. -/
theorem moreEntries_print {es : List (String × Json)}
    (h : ∀ e ∈ es, Spelling e.2 (e.2.print depth)) {b : List Char} (hb : Blank b) :
    MoreEntries es (printEntries depth es ++ (b ++ ['}'])) := by
  induction es with
  | nil => exact .nil hb
  | cons e es ih =>
      obtain ⟨k, v⟩ := e
      obtain ⟨hv, hes⟩ := List.forall_mem_cons.mp h
      rw [printEntries]
      simp only [List.cons_append, List.append_assoc, List.nil_append]
      have hspace : Blank [' '] := by decide
      exact .cons blank_nil (blank_newline depth) (literal_printString k) blank_nil hspace hv
        (ih hes)

end Containers

/-- **Printing.** What is printed of a value is one of its spellings, however deep it stands. -/
theorem Printable.spelling {j : Json} (h : j.Printable) (depth : Nat) :
    Spelling j (j.print depth) := by
  induction h generalizing depth with
  | null => exact .null
  | bool b =>
      cases b with
      | true => exact .true
      | false => exact .false
  | int h =>
      rw [print, print_int]
      exact .int h
  | str s => exact .str (literal_printString s)
  | @arr es _ ih =>
      cases es with
      | nil => exact .arr (.nil blank_nil)
      | cons e es =>
          obtain ⟨he, hes⟩ := List.forall_mem_cons.mp ih
          rw [print]
          simp only [List.append_assoc]
          exact .arr (.cons (blank_newline _) (he _)
            (moreElements_print (fun e he => hes e he _) (blank_newline depth)))
  | @obj es _ ih =>
      cases es with
      | nil => exact .obj (.nil blank_nil)
      | cons e es =>
          obtain ⟨k, v⟩ := e
          obtain ⟨hv, hes⟩ := List.forall_mem_cons.mp ih
          rw [print]
          simp only [List.append_assoc, List.cons_append, List.nil_append]
          have hspace : Blank [' '] := by decide
          exact .obj (.cons (blank_newline _) (literal_printString k) blank_nil hspace (hv _)
            (moreEntries_print (fun e he => hes e he _) (blank_newline depth)))

end Json

end Nullness
