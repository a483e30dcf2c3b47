import Nullness.Proofs.HostNames
import Nullness.Proofs.Walks
import Nullness.Url.Parse

/-!
# Hosts are read as they are written

The text of a host is the name itself, the numbers of an address between points, or an address in
brackets. Nothing in it ends the host too early, and no name is taken for a number. So a host is
read from its own text, with the exception that names have: a code that is too long to be found.

- `Url.Host.isSpecial_of_ofSpecial`, `Url.Host.isOther_of_ofOther`: the hosts that are read.
- `Url.Host.ofSpecial_text`, `Url.Host.ofOther_text`: a host is read from its text.
- `Url.takeHost_text`: the text of a host is found in front of a port.
-/

namespace Nullness

namespace Url

variable {c : Char} {s t n : List Char} {host : Host}

/-! ## The hosts that are read -/

/-- The name of a host under a special scheme. -/
structure IsHostName (n : List Char) : Prop extends Name.IsName n where
  ne_nil : n ≠ []
  chars : ∀ c ∈ n, isForbidden c = false
  not_number : endsInNumber n = false

namespace Host

/-- The hosts of special schemes. -/
def IsSpecial : Host → Prop
  | name n => IsHostName n
  | address4 a => a < 4294967296
  | address6 ns => IsAddress6 ns

/-- The hosts of other schemes. -/
def IsOther : Host → Prop
  | name n => ∀ c ∈ n, controls c = false ∧ isForbiddenAnywhere c = false
  | address4 _ => False
  | address6 ns => IsAddress6 ns

/-- The hosts of the schemes of a kind. -/
def IsOf (kind : SchemeKind) (host : Host) : Prop :=
  if kind.isSpecial then host.IsSpecial else host.IsOther

/-- The host of a URL with a scheme of a kind. -/
def read (kind : SchemeKind) (s : List Char) : Except UrlError Host :=
  if kind.isSpecial then ofSpecial s else ofOther s

/-- No code in the name of the host is too long to be found. -/
def CodesFit : Host → Prop
  | name n => Name.CodesFit n
  | _ => True

theorem isAddress6_of_bracketed (h : bracketed s = .ok host) :
    ∃ ns, host = .address6 ns ∧ IsAddress6 ns := by
  rw [bracketed] at h
  split at h
  · split at h
    · next ns hns =>
      cases h
      exact ⟨ns, rfl, isAddress6_of_address6? hns⟩
    · cases h
  · cases h

theorem isSpecial_of_ofSpecial (h : ofSpecial s = .ok host) : host.IsSpecial := by
  rw [ofSpecial] at h
  split at h
  · obtain ⟨ns, rfl, hns⟩ := isAddress6_of_bracketed h
    exact hns
  · split at h
    · cases h
    · next n hn =>
      obtain ⟨t, -, hascii⟩ := Option.bind_eq_some_iff.mp hn
      split at h
      · cases h
      · next hchars =>
        split at h
        · cases h
        · next hne =>
          split at h
          · split at h
            · next a ha =>
              cases h
              exact lt_of_address4? ha
            · cases h
          · next hnumber =>
            cases h
            exact { Name.isName_of_ascii? hascii with
              ne_nil := fun hnil => hne (List.isEmpty_iff.mpr hnil)
              chars := fun c hc => by
                have := List.any_eq_false.mp (Bool.eq_false_iff.mpr hchars) c hc
                simpa using this
              not_number := Bool.eq_false_iff.mpr hnumber }

theorem isOther_of_ofOther (h : ofOther s = .ok host) : host.IsOther := by
  have hescape : isForbiddenAnywhere '%' = false ∧
      ∀ n < 16, isForbiddenAnywhere (hexDigit n) = false := by decide
  rw [ofOther] at h
  split at h
  · obtain ⟨ns, rfl, hns⟩ := isAddress6_of_bracketed h
    exact hns
  · split at h
    · cases h
    · next hchars =>
      cases h
      refine fun c hc => ⟨clear_encode sparesEscapes_controls c hc, ?_⟩
      refine forall_mem_encode (P := fun c => isForbiddenAnywhere c = false) (fun d hd _ => ?_)
        hescape.1 hescape.2 c hc
      simpa using List.any_eq_false.mp (Bool.eq_false_iff.mpr hchars) d hd

theorem isOf_of_read {kind : SchemeKind} (h : read kind s = .ok host) : host.IsOf kind := by
  rw [read] at h
  rw [IsOf]
  split at h
  · next hkind =>
    rw [if_pos hkind]
    exact isSpecial_of_ofSpecial h
  · next hkind =>
    rw [if_neg hkind]
    exact isOther_of_ofOther h

/-! ## Characters -/

/-- The characters of a name neither end it nor are blanks. -/
def Plain : Host → Prop
  | name n => ∀ c ∈ n, isForbiddenAnywhere c = false ∧ ' ' < c
  | _ => True

end Host

theorem isForbidden_of_anywhere (h : isForbiddenAnywhere c = true) : isForbidden c = true := by
  simp only [isForbiddenAnywhere, List.contains_iff_mem, List.mem_cons, List.not_mem_nil,
    or_false] at h
  rcases h with rfl | rfl | rfl | rfl | rfl | rfl | rfl | rfl | rfl | rfl | rfl | rfl | rfl | rfl |
    rfl | rfl | rfl <;> decide

theorem not_isForbiddenAnywhere (h : isForbidden c = false) : isForbiddenAnywhere c = false := by
  refine Bool.eq_false_iff.mpr fun hany => ?_
  rw [isForbidden_of_anywhere hany] at h
  cases h

theorem blank_lt_of_isForbidden (h : isForbidden c = false) : ' ' < c := by
  simp only [isForbidden, Bool.or_eq_false_iff, decide_eq_false_iff_not] at h
  exact Char.not_le.mp h.1.1

theorem blank_le_of_controls (h : controls c = false) : ' ' ≤ c := by
  simp only [controls, Bool.or_eq_false_iff, decide_eq_false_iff_not] at h
  exact Char.not_lt.mp h.1

/-- What is neither a control nor a blank stands behind the blank. -/
theorem blank_lt_of_controls (h : controls c = false) (hne : c ≠ ' ') : ' ' < c :=
  Std.lt_of_le_of_ne (blank_le_of_controls h) hne.symm

namespace Host

theorem IsSpecial.plain (h : host.IsSpecial) : host.Plain := by
  cases host with
  | name n => exact fun c hc =>
      ⟨not_isForbiddenAnywhere (h.chars c hc), blank_lt_of_isForbidden (h.chars c hc)⟩
  | address4 a => trivial
  | address6 ns => trivial

theorem IsOther.plain (h : host.IsOther) : host.Plain := by
  cases host with
  | name n =>
      intro c hc
      obtain ⟨hcontrols, hany⟩ := h c hc
      refine ⟨hany, blank_lt_of_controls hcontrols ?_⟩
      rintro rfl
      cases hany
  | address4 a => trivial
  | address6 ns => trivial

end Host

/-- A character that the text of a host may hold: it neither ends the host nor is a blank. -/
def isHostChar (c : Char) : Bool :=
  ' ' < c && ['/', '\\', '?', '#', '@'].all (c != ·)

theorem isHostChar_of_not_forbidden (hany : isForbiddenAnywhere c = false) (hc : ' ' < c) :
    isHostChar c = true := by
  simp only [isForbiddenAnywhere, Bool.eq_false_iff, ne_eq, List.contains_iff_mem, List.mem_cons,
    List.not_mem_nil, or_false, not_or] at hany
  simp [isHostChar, hc, hany]

theorem mem_address4Text {a : Nat} (h : c ∈ address4Text a) :
    c = '.' ∨ ∃ d < 10, c = d.digitChar := by
  rw [address4Text_eq] at h
  refine (Text.mem_intercalate h).imp_right fun ⟨part, hpart, hc⟩ => ?_
  obtain ⟨n, -, rfl⟩ := List.mem_map.mp hpart
  exact exists_of_mem_toDigits (by decide) hc

namespace Host

theorem Plain.isHostChar (h : host.Plain) : ∀ c ∈ host.text, isHostChar c = true := by
  have hhex : ∀ d < 16, Url.isHostChar d.digitChar = true := by decide
  intro c hc
  cases host with
  | name n => exact isHostChar_of_not_forbidden (h c hc).1 (h c hc).2
  | address4 a =>
      rcases mem_address4Text hc with rfl | ⟨d, hd, rfl⟩
      · decide
      · exact hhex d (by omega)
  | address6 ns =>
      rcases List.mem_cons.mp hc with rfl | hc
      · decide
      · rcases List.mem_append.mp hc with hc | hc
        · rcases mem_address6Text hc with rfl | ⟨d, hd, rfl⟩
          · decide
          · exact hhex d hd
        · rw [List.mem_singleton.mp hc]
          decide

end Host

/-! ## Reading -/

theorem IsHostName.not_mem (h : IsHostName n) (hc : isForbidden c = true) : c ∉ n := by
  intro hmem
  rw [h.chars c hmem] at hc
  cases hc

theorem not_mem_address4Text {a : Nat} (hpoint : c ≠ '.') (hdigit : ∀ d < 10, c ≠ d.digitChar) :
    c ∉ address4Text a := by
  intro hmem
  rcases mem_address4Text hmem with hc | ⟨d, hd, hc⟩
  · exact hpoint hc
  · exact hdigit d hd hc

theorem address4Text_ne_nil (a : Nat) : address4Text a ≠ [] := by
  simp [address4Text]

/-- The text of an address is a name without codes. -/
theorem isName_address4Text (a : Nat) :
    Name.IsName (address4Text a) ∧ Name.CodesFit (address4Text a) := by
  have hdigit : ∀ d < 10, d.digitChar.toNat < 128 ∧ d.digitChar.isUpper = false := by decide
  have hall : ∀ c ∈ address4Text a, c.toNat < 128 ∧ c.isUpper = false := by
    intro c hc
    rcases mem_address4Text hc with rfl | ⟨d, hd, rfl⟩
    · decide
    · exact hdigit d hd
  refine Name.isName_of_no_code (Name.isAscii_iff.mpr fun c hc => (hall c hc).1)
    (fun c hc => (hall c hc).2) fun label hlabel => if_neg fun hmark => ?_
  have hx : 'x' ∈ label := (List.isPrefixOf_iff_prefix.mp hmark).subset (by decide)
  exact not_mem_address4Text (by decide) (by decide) (Text.mem_split hlabel 'x' hx).1

/-- A name in ASCII stands for itself, unless one of its codes is too long. -/
theorem bind_ascii?_of_isName (hpercent : '%' ∉ n) (h : Name.IsName n) :
    (decode? n).bind Name.ascii? = if Name.CodesFit n then some n else none := by
  rw [decode?_of_not_mem hpercent, Option.bind_some, Name.ascii?_of_isName h]

theorem any_eq_false_of_forall {p : Char → Bool} (h : ∀ c ∈ s, p c = false) : s.any p = false :=
  List.any_eq_false.mpr fun c hc => Bool.eq_false_iff.mp (h c hc)

theorem isForbidden_address4Text (a : Nat) : (address4Text a).any isForbidden = false := by
  have hdigit : ∀ d < 10, isForbidden d.digitChar = false := by decide
  refine any_eq_false_of_forall fun c hc => ?_
  rcases mem_address4Text hc with rfl | ⟨d, hd, rfl⟩
  · decide
  · exact hdigit d hd

namespace Host

theorem bracketed_text {ns : List Nat} (h : IsAddress6 ns) :
    bracketed (address6 ns).text = .ok (.address6 ns) := by
  have hlast : (address6 ns).text.getLast? = some ']' := by
    rw [text, ← List.cons_append, List.getLast?_concat]
  have hinner : (address6 ns).text.dropLast.tail = address6Text ns := by
    rw [text, ← List.cons_append, List.dropLast_concat, List.tail_cons]
  rw [bracketed, hlast, hinner, address6?_text h]
  rfl

/-- A host of a special scheme is read from its text. -/
theorem ofSpecial_text (h : host.IsSpecial) (hfit : host.CodesFit) :
    ofSpecial host.text = .ok host := by
  cases host with
  | name n =>
      have hhead : n.head? ≠ some '[' :=
        fun hhead => h.not_mem (by decide) (List.mem_of_head? hhead)
      have hread : (decode? n).bind Name.ascii? = some n := by
        rw [bind_ascii?_of_isName (h.not_mem (by decide)) h.toIsName]
        exact if_pos hfit
      have hne : ¬ n.isEmpty = true := by simpa using h.ne_nil
      rw [text, ofSpecial, if_neg hhead, hread]
      dsimp only
      rw [any_eq_false_of_forall h.chars, if_neg Bool.false_ne_true, if_neg hne, h.not_number,
        if_neg Bool.false_ne_true]
  | address4 a =>
      have hnot : ∀ c, c ≠ '.' → (∀ d < 10, c ≠ d.digitChar) → c ∉ address4Text a :=
        fun c => not_mem_address4Text
      have hhead : (address4Text a).head? ≠ some '[' :=
        fun hhead => hnot '[' (by decide) (by decide) (List.mem_of_head? hhead)
      have hname := isName_address4Text a
      have hread : (decode? (address4Text a)).bind Name.ascii? = some (address4Text a) := by
        rw [bind_ascii?_of_isName (hnot '%' (by decide) (by decide)) hname.1, if_pos hname.2]
      have hne : ¬ (address4Text a).isEmpty = true := by simpa using address4Text_ne_nil a
      rw [text, ofSpecial, if_neg hhead, hread]
      dsimp only
      rw [isForbidden_address4Text, if_neg Bool.false_ne_true, if_neg hne,
        endsInNumber_address4Text, if_pos rfl, address4?_text h]
  | address6 ns => rw [ofSpecial, if_pos (by rfl), bracketed_text h]

/-- A name with a code that is too long is refused. -/
theorem ofSpecial_text_of_not_codesFit (h : host.IsSpecial) (hfit : ¬ host.CodesFit) :
    ofSpecial host.text = .error .invalidName := by
  cases host with
  | name n =>
      have hhead : n.head? ≠ some '[' :=
        fun hhead => h.not_mem (by decide) (List.mem_of_head? hhead)
      have hread : (decode? n).bind Name.ascii? = none := by
        rw [bind_ascii?_of_isName (h.not_mem (by decide)) h.toIsName]
        exact if_neg hfit
      rw [text, ofSpecial, if_neg hhead, hread]
  | address4 a => exact absurd trivial hfit
  | address6 ns => exact absurd trivial hfit

/-- A host of another scheme is read from its text. -/
theorem ofOther_text (h : host.IsOther) : ofOther host.text = .ok host := by
  cases host with
  | name n =>
      have hhead : n.head? ≠ some '[' := by
        intro hhead
        have := (h '[' (List.mem_of_head? hhead)).2
        revert this
        decide
      rw [text, ofOther, if_neg hhead, any_eq_false_of_forall fun c hc => (h c hc).2,
        if_neg Bool.false_ne_true, encode_of_clear fun c hc => (h c hc).1]
  | address4 a => exact absurd h id
  | address6 ns => rw [ofOther, if_pos (by rfl), bracketed_text h]

theorem IsOf.plain {kind : SchemeKind} (h : host.IsOf kind) : host.Plain := by
  rw [IsOf] at h
  split at h
  · exact IsSpecial.plain h
  · exact IsOther.plain h

/-- A host is read from its text, if no code in its name is too long where codes count. -/
theorem read_text {kind : SchemeKind} (h : host.IsOf kind)
    (hfit : kind.isSpecial = true → host.CodesFit) : read kind host.text = .ok host := by
  rw [IsOf] at h
  rw [read]
  split at h
  · next hkind => rw [if_pos hkind, ofSpecial_text h (hfit hkind)]
  · next hkind => rw [if_neg hkind, ofOther_text h]

theorem IsSpecial.text_ne_nil (h : host.IsSpecial) : host.text ≠ [] := by
  cases host with
  | name n => exact h.ne_nil
  | address4 a => exact address4Text_ne_nil a
  | address6 ns => exact List.cons_ne_nil _ _

theorem isEmpty_iff : host.isEmpty = true ↔ host.text = [] := by
  cases host with
  | name n => exact List.isEmpty_iff
  | address4 a => simp [isEmpty, text, address4Text_ne_nil]
  | address6 ns => simp [isEmpty, text]

/-- No host is taken for a drive. -/
theorem IsSpecial.isDrive_text (h : host.IsSpecial) : isDrive host.text = false := by
  refine Bool.eq_false_iff.mpr fun hdrive => ?_
  obtain ⟨c, d, htext, hc, hd⟩ := exists_of_isDrive hdrive
  -- behind the letter of a drive stands what no name and no number holds
  cases host with
  | name n =>
      have hmem : d ∈ n := by
        rw [text] at htext
        simp [htext]
      refine h.not_mem ?_ hmem
      rcases hd with rfl | rfl <;> decide
  | address4 a =>
      have hmem : d ∈ address4Text a := by
        rw [text] at htext
        simp [htext]
      refine not_mem_address4Text ?_ ?_ hmem <;> rcases hd with rfl | rfl <;> decide
  | address6 ns =>
      obtain ⟨rfl, -⟩ := List.cons.inj htext
      exact absurd hc (by decide)

end Host

/-! ## In front of a port -/

theorem takeHost_cons {inBrackets : Bool} (h : c ≠ ':' ∨ inBrackets = true) :
    takeHost inBrackets (c :: s) =
      let inBrackets := if c = '[' then true else if c = ']' then false else inBrackets
      (c :: (takeHost inBrackets s).1, (takeHost inBrackets s).2) := by
  rw [takeHost]
  refine if_neg ?_
  rcases h with h | rfl <;> simp_all

/-- Within brackets or outside of them, a text without brackets belongs to the host; outside of
them it must not hold colons. -/
theorem takeHost_append {inBrackets : Bool}
    (h : ∀ c ∈ s, (c ≠ ':' ∨ inBrackets = true) ∧ c ≠ '[' ∧ c ≠ ']') :
    takeHost inBrackets (s ++ t) =
      (s ++ (takeHost inBrackets t).1, (takeHost inBrackets t).2) := by
  induction s with
  | nil => rfl
  | cons c s ih =>
      obtain ⟨hcolon, hopen, hclose⟩ := h c List.mem_cons_self
      rw [List.cons_append, takeHost_cons hcolon, if_neg hopen, if_neg hclose]
      dsimp only
      rw [ih fun d hd => h d (List.mem_cons_of_mem c hd)]
      rfl

/-- The text of a host is found in front of a port. -/
theorem takeHost_text (h : host.Plain) (ht : t = [] ∨ t.head? = some ':') :
    takeHost false (host.text ++ t) = (host.text, t) := by
  have hrest : takeHost false t = ([], t) := by
    cases t with
    | nil => rfl
    | cons c t =>
        obtain rfl : c = ':' := by simpa using ht
        rfl
  cases host with
  | name n =>
      rw [Host.text, takeHost_append, hrest, List.append_nil]
      intro c hc
      have hany := (h c hc).1
      refine ⟨.inl ?_, ?_, ?_⟩ <;> rintro rfl <;> revert hany <;> decide
  | address4 a =>
      rw [Host.text, takeHost_append, hrest, List.append_nil]
      intro c hc
      refine ⟨.inl ?_, ?_, ?_⟩ <;> rintro rfl <;>
        exact not_mem_address4Text (by decide) (by decide) hc
  | address6 ns =>
      -- within the brackets colons do not end the host
      have hinner : ∀ c ∈ address6Text ns, (c ≠ ':' ∨ true = true) ∧ c ≠ '[' ∧ c ≠ ']' := by
        have hhex : ∀ d < 16, d.digitChar ≠ '[' ∧ d.digitChar ≠ ']' := by decide
        intro c hc
        refine ⟨.inr rfl, ?_⟩
        rcases mem_address6Text hc with rfl | ⟨d, hd, rfl⟩
        · decide
        · exact hhex d hd
      have hclose : takeHost true (']' :: t) = ([']'], t) := by
        rw [takeHost_cons (.inr rfl)]
        show (']' :: (takeHost false t).1, (takeHost false t).2) = _
        rw [hrest]
      rw [Host.text, List.cons_append, List.append_assoc, takeHost_cons (.inl (by decide))]
      show ('[' :: (takeHost true (address6Text ns ++ ']' :: t)).1,
        (takeHost true (address6Text ns ++ ']' :: t)).2) = _
      rw [takeHost_append hinner, hclose]

end Url

end Nullness
