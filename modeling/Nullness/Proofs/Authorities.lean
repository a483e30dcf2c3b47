import Nullness.Proofs.Hosts

/-!
# What stands behind two slashes is read as it is written

A user name and a password are encoded so far that neither of them ends early. Behind the last
at sign comes the host, then perhaps a port that is not the default one. Each part is found again
in its place.

- `Url.Authority.Sound`: what is read behind two slashes.
- `Url.sound_of_parseAuthority`: reading gives that and a path.
- `Url.Authority.Sound.parseAuthority_text`: it is read from its text.
-/

namespace Nullness

namespace Text

variable {mark : Char} {s t : List Char} {p : Char → Bool}

/-- What is taken from the front ends where the condition first fails. -/
theorem takeWhile_append_stop (hs : ∀ c ∈ s, p c = true) (ht : ∀ c ∈ t.head?, p c = false) :
    (s ++ t).takeWhile p = s := by
  rw [List.takeWhile_append_of_pos hs]
  cases t with
  | nil => simp
  | cons c t => simp [ht c rfl]

theorem dropWhile_append_stop (hs : ∀ c ∈ s, p c = true) (ht : ∀ c ∈ t.head?, p c = false) :
    (s ++ t).dropWhile p = t := by
  rw [List.dropWhile_append_of_pos hs]
  cases t with
  | nil => simp
  | cons c t => simp [ht c rfl]

section Ends
variable (hs : ∀ c ∈ s, p c = false) (ht : ∀ c ∈ t.head?, p c = true)
include hs ht

theorem takeWhile_not_append : (s ++ t).takeWhile (!p ·) = s :=
  takeWhile_append_stop (by simpa using hs) (by simpa using ht)

theorem dropWhile_not_append : (s ++ t).dropWhile (!p ·) = t :=
  dropWhile_append_stop (by simpa using hs) (by simpa using ht)

end Ends

section Mark
variable (hs : mark ∉ s) (ht : ∀ c ∈ t.head?, c = mark)
include hs ht

theorem takeWhile_ne_append : (s ++ t).takeWhile (· ≠ mark) = s :=
  takeWhile_append_stop (fun _ hc => decide_eq_true (ne_of_mem_of_not_mem hc hs))
    fun c hc => decide_eq_false (not_not_intro (ht c hc))

theorem dropWhile_ne_append : (s ++ t).dropWhile (· ≠ mark) = t :=
  dropWhile_append_stop (fun _ hc => decide_eq_true (ne_of_mem_of_not_mem hc hs))
    fun c hc => decide_eq_false (not_not_intro (ht c hc))

end Mark

theorem splitLast?_of_not_mem (h : mark ∉ s) : splitLast? mark s = none := by
  have hdrop : (s.reverse ++ []).dropWhile (· ≠ mark) = [] :=
    dropWhile_ne_append (by simpa using h) (by simp)
  rw [List.append_nil] at hdrop
  rw [splitLast?, hdrop]

theorem splitLast?_append (h : mark ∉ t) (s : List Char) :
    splitLast? mark (s ++ mark :: t) = some (s, t) := by
  have hreverse : (s ++ mark :: t).reverse = t.reverse ++ mark :: s.reverse := by simp
  have hmem : mark ∉ t.reverse := by simpa using h
  have hhead : ∀ c ∈ (mark :: s.reverse).head?, c = mark := by simp
  rw [splitLast?, hreverse, dropWhile_ne_append hmem hhead, takeWhile_ne_append hmem hhead]
  simp

end Text

namespace Url

variable {scheme s rest : List Char} {a : Authority} {u : Url} {c : Char} {kind : SchemeKind}

/-! ## The part behind the user name -/

/-- A URL behind its two slashes and its user name. -/
def behindUser (scheme user s : List Char) : Except UrlError Url :=
  let kind := SchemeKind.of scheme
  let name := user.takeWhile (· ≠ ':')
  let password := (user.dropWhile (· ≠ ':')).tail
  let (hostText, portText) := takeHost false (s.takeWhile (!kind.endsAuthority ·))
  if kind = .special && hostText.isEmpty then .error .emptyHost
  else
    (Host.read kind hostText).bind fun host =>
      if host.isEmpty && !portText.isEmpty then .error .emptyHost
      else
        (port? (portText.tail.takeWhile (· ≠ '\\'))).bind fun port =>
          if host.isEmpty && !(name.isEmpty && password.isEmpty) then .error .emptyHost
          else
            let rest :=
              portText.tail.dropWhile (· ≠ '\\') ++ s.dropWhile (!kind.endsAuthority ·)
            let authority : Authority :=
              { user := encode userSet name
                password := encode userSet password
                host
                port := if port = defaultPort? scheme then none else port }
            .ok (build scheme (some authority) (pathBehindHost kind (pathPart rest)) rest)

theorem parseAuthority_eq (scheme s : List Char) :
    parseAuthority scheme s =
      let ends := (SchemeKind.of scheme).endsAuthority
      match Text.splitLast? '@' (s.takeWhile (!ends ·)) with
      | none => behindUser scheme [] s
      | some (user, host) =>
        let rest := host ++ s.dropWhile (!ends ·)
        if user.isEmpty && (rest.head?.map ends).getD false then .error .emptyHost
        else behindUser scheme user rest := by
  -- the definition tells the kinds of hosts apart around the bind, `Host.read` within it
  have hbranch : ∀ {α : Type} (b : Bool) (x y : Except UrlError α) (f : α → Except UrlError Url),
      (if b then x else y).bind f = if b then x.bind f else y.bind f := by
    intro α b x y f
    cases b <;> rfl
  unfold parseAuthority behindUser Host.read
  cases Text.splitLast? '@' (s.takeWhile (!(SchemeKind.of scheme).endsAuthority ·)) with
  | none =>
      simp only [hbranch]
      rfl
  | some parts =>
      simp only [hbranch]
      rfl

/-! ## What is read -/

/-- What stands behind two slashes in the URLs of a scheme other than that of files. -/
structure Authority.Sound (scheme : List Char) (a : Authority) : Prop where
  user : Clear userSet a.user
  password : Clear userSet a.password
  host : a.host.IsOf (.of scheme)
  port : ∀ p, a.port = some p → p < 65536 ∧ defaultPort? scheme ≠ some p
  /-- Nothing belongs to a host that is empty. -/
  alone : a.host.isEmpty = true → a.user = [] ∧ a.password = [] ∧ a.port = none

theorem lt_of_port? {digits : List Char} {port : Option Nat} {p : Nat}
    (h : port? digits = .ok port) (hp : port = some p) : p < 65536 := by
  subst hp
  rw [port?] at h
  split at h
  · cases h
  · split at h
    · split at h
      · next hlt =>
        cases h
        exact hlt
      · cases h
    · cases h

theorem exists_of_bind_eq_ok {ε α β : Type} {x : Except ε α} {f : α → Except ε β} {b : β}
    (h : x.bind f = .ok b) : ∃ a, x = .ok a ∧ f a = .ok b := by
  cases x with
  | error e => cases h
  | ok a => exact ⟨a, rfl, h⟩

theorem sound_of_behindUser {user : List Char} (h : behindUser scheme user s = .ok u) :
    ∃ a rest, a.Sound scheme ∧
      u = build scheme (some a) (pathBehindHost (.of scheme) (pathPart rest)) rest := by
  unfold behindUser at h
  dsimp only at h
  split at h
  · cases h
  · obtain ⟨host, hhost, h⟩ := exists_of_bind_eq_ok h
    split at h
    · cases h
    · next hport =>
      obtain ⟨port, hread, h⟩ := exists_of_bind_eq_ok h
      split at h
      · cases h
      · next huser =>
        cases h
        refine ⟨_, _, ⟨clear_encode sparesEscapes_userSet, clear_encode sparesEscapes_userSet,
          Host.isOf_of_read hhost, fun p hp => ?_, fun hempty => ?_⟩, rfl⟩
        · dsimp only at hp
          split at hp
          · cases hp
          · next hne => exact ⟨lt_of_port? hread hp, fun hdefault => hne (hp.trans hdefault.symm)⟩
        · dsimp only at hempty ⊢
          simp only [hempty, Bool.true_and, Bool.not_eq_true, Bool.not_eq_false',
            Bool.and_eq_true, List.isEmpty_iff] at hport huser
          have hnone : port = none := by
            rw [hport] at hread
            cases hread
            rfl
          rw [huser.1, huser.2, hnone]
          exact ⟨rfl, rfl, ite_self none⟩

theorem sound_of_parseAuthority (h : parseAuthority scheme s = .ok u) :
    ∃ a rest, a.Sound scheme ∧
      u = build scheme (some a) (pathBehindHost (.of scheme) (pathPart rest)) rest := by
  rw [parseAuthority_eq] at h
  dsimp only at h
  split at h
  · exact sound_of_behindUser h
  · split at h
    · cases h
    · exact sound_of_behindUser h

/-! ## Its text -/

namespace Authority

/-- The user name and the password, without the mark behind them. -/
def userText (a : Authority) : List Char :=
  a.user ++ if a.password.isEmpty then [] else ':' :: a.password

/-- The port with the mark before it. -/
def portText (a : Authority) : List Char :=
  match a.port with
  | none => []
  | some p => ':' :: Nat.toDigits 10 p

theorem text_eq (a : Authority) :
    a.text =
      (if a.userText = [] then [] else a.userText ++ ['@']) ++ a.host.text ++ a.portText := by
  have huser : (if a.user.isEmpty && a.password.isEmpty then [] else
      a.user ++ (if a.password.isEmpty then [] else ':' :: a.password) ++ ['@']) =
      if a.userText = [] then [] else a.userText ++ ['@'] := by
    by_cases hpassword : a.password = []
    · simp [userText, hpassword]
    · simp [userText, hpassword]
  rw [← huser]
  rfl

theorem head?_password (a : Authority) :
    ∀ c ∈ (if a.password.isEmpty then [] else ':' :: a.password).head?, c = ':' := by
  intro c hc
  split at hc
  · cases hc
  · cases hc
    rfl

/-- The name is found in front of the first colon, the password behind it. -/
theorem takeWhile_userText (h : ':' ∉ a.user) : a.userText.takeWhile (· ≠ ':') = a.user :=
  Text.takeWhile_ne_append h a.head?_password

theorem dropWhile_userText (h : ':' ∉ a.user) :
    (a.userText.dropWhile (· ≠ ':')).tail = a.password := by
  rw [userText, Text.dropWhile_ne_append h a.head?_password]
  split
  · next hpassword => simpa using hpassword
  · rfl

end Authority

/-! ### Characters -/

theorem isHostChar_of_userSet (h : userSet c = false) : isHostChar c = true := by
  have hany : isForbiddenAnywhere c = true → userSet c = true := by
    intro hany
    simp only [isForbiddenAnywhere, List.contains_iff_mem, List.mem_cons, List.not_mem_nil,
      or_false] at hany
    rcases hany with rfl | rfl | rfl | rfl | rfl | rfl | rfl | rfl | rfl | rfl | rfl | rfl | rfl |
      rfl | rfl | rfl | rfl <;> decide
  have hcontrols : controls c = false := by
    simp only [userSet, pathSet, fragmentSet, Bool.or_eq_false_iff] at h
    exact h.1.1.1
  refine isHostChar_of_not_forbidden (Bool.eq_false_iff.mpr fun hc => ?_) ?_
  · rw [hany hc] at h
    cases h
  · refine blank_lt_of_controls hcontrols ?_
    rintro rfl
    exact absurd h (by decide)

theorem blank_lt_of_isHostChar (h : isHostChar c = true) : ' ' < c := by
  simp only [isHostChar, Bool.and_eq_true, decide_eq_true_eq] at h
  exact h.1

theorem not_endsAuthority (h : isHostChar c = true) : kind.endsAuthority c = false := by
  simp only [isHostChar, List.all_cons, List.all_nil, Bool.and_true, Bool.and_eq_true, bne_iff_ne,
    ne_eq] at h
  simp [SchemeKind.endsAuthority, SchemeKind.endsSegment, h]

namespace Authority.Sound

theorem isHostChar_userText (h : a.Sound scheme) : ∀ c ∈ a.userText, isHostChar c = true := by
  intro c hc
  rcases List.mem_append.mp hc with hc | hc
  · exact isHostChar_of_userSet (h.user c hc)
  · split at hc
    · cases hc
    · rcases List.mem_cons.mp hc with rfl | hc
      · decide
      · exact isHostChar_of_userSet (h.password c hc)

theorem isHostChar_portText : ∀ c ∈ a.portText, isHostChar c = true := by
  have hdigit : ∀ d < 10, Url.isHostChar d.digitChar = true := by decide
  intro c hc
  rw [portText] at hc
  split at hc
  · cases hc
  · rcases List.mem_cons.mp hc with rfl | hc
    · decide
    · obtain ⟨d, hd, rfl⟩ := exists_of_mem_toDigits (by decide) hc
      exact hdigit d hd

theorem isHostChar_behindUser (h : a.Sound scheme) :
    ∀ c ∈ a.host.text ++ a.portText, isHostChar c = true := by
  intro c hc
  rcases List.mem_append.mp hc with hc | hc
  · exact h.host.plain.isHostChar c hc
  · exact isHostChar_portText c hc

/-- Nothing in the text ends it, and there are no blanks in it. -/
theorem isHostChar_text (h : a.Sound scheme) : ∀ c ∈ a.text, isHostChar c = true ∨ c = '@' := by
  intro c hc
  rw [text_eq, List.append_assoc] at hc
  rcases List.mem_append.mp hc with hc | hc
  · split at hc
    · cases hc
    · rcases List.mem_append.mp hc with hc | hc
      · exact .inl (h.isHostChar_userText c hc)
      · exact .inr (List.mem_singleton.mp hc)
  · exact .inl (h.isHostChar_behindUser c hc)

theorem blank_lt_text (h : a.Sound scheme) : ∀ c ∈ a.text, ' ' < c := by
  intro c hc
  rcases h.isHostChar_text c hc with hc | rfl
  · exact blank_lt_of_isHostChar hc
  · decide

theorem not_endsAuthority_text (h : a.Sound scheme) :
    ∀ c ∈ a.text, kind.endsAuthority c = false := by
  intro c hc
  rcases h.isHostChar_text c hc with hc | rfl
  · exact not_endsAuthority hc
  · cases kind <;> decide

/-! ### Reading it -/

theorem colon_not_mem_user (h : a.Sound scheme) : ':' ∉ a.user := by
  intro hmem
  exact absurd (h.user ':' hmem) (by decide)

theorem port?_portText (h : a.Sound scheme) : port? a.portText.tail = .ok a.port := by
  rw [portText]
  split
  · next hnone => rw [hnone]; rfl
  · next p hp =>
    have hne : ¬ (Nat.toDigits 10 p).isEmpty = true := by simp [Nat.toDigits_ne_nil]
    rw [List.tail_cons, port?, if_neg hne, number?_toDigits (by decide) (by decide), hp]
    exact if_pos (h.port p hp).1

variable (hrest : ∀ c ∈ rest.head?, (SchemeKind.of scheme).endsAuthority c = true)
include hrest

/-- The user name is found in front of the last at sign. -/
theorem parseAuthority_eq_behindUser (h : a.Sound scheme) :
    parseAuthority scheme (a.text ++ rest) =
      behindUser scheme a.userText (a.host.text ++ a.portText ++ rest) := by
  have hat : '@' ∉ a.host.text ++ a.portText := fun hmem =>
    absurd (h.isHostChar_behindUser '@' hmem) (by decide)
  rw [parseAuthority_eq]
  dsimp only
  rw [Text.takeWhile_not_append h.not_endsAuthority_text hrest,
    Text.dropWhile_not_append h.not_endsAuthority_text hrest, text_eq]
  by_cases huser : a.userText = []
  · rw [if_pos huser, List.nil_append, Text.splitLast?_of_not_mem hat, huser]
  · have hempty : a.userText.isEmpty = false := by simpa using huser
    rw [if_neg huser, List.append_assoc, List.append_assoc, List.singleton_append,
      Text.splitLast?_append hat]
    dsimp only
    rw [hempty]
    rfl

/-- The host and the port are found in front of the rest. -/
theorem behindUser_eq (h : a.Sound scheme) (user : List Char) :
    behindUser scheme user (a.host.text ++ a.portText ++ rest) =
      (Host.read (.of scheme) a.host.text).bind fun host =>
        if host.isEmpty && !a.portText.isEmpty then .error .emptyHost
        else if host.isEmpty && !((user.takeWhile (· ≠ ':')).isEmpty &&
            (user.dropWhile (· ≠ ':')).tail.isEmpty) then .error .emptyHost
        else
          .ok (build scheme (some
            { user := encode userSet (user.takeWhile (· ≠ ':'))
              password := encode userSet (user.dropWhile (· ≠ ':')).tail
              host
              port := a.port })
            (pathBehindHost (.of scheme) (pathPart rest)) rest) := by
  have hchars : ∀ c ∈ a.host.text ++ a.portText, (SchemeKind.of scheme).endsAuthority c = false :=
    fun c hc => not_endsAuthority (h.isHostChar_behindUser c hc)
  have hport : a.portText = [] ∨ a.portText.head? = some ':' := by
    rw [portText]
    split
    · exact .inl rfl
    · exact .inr rfl
  have hslash : ∀ c ∈ a.portText.tail, decide (c ≠ '\\') = true := by
    intro c hc
    have := isHostChar_portText c (List.mem_of_mem_tail hc)
    simp only [decide_eq_true_eq]
    rintro rfl
    exact absurd this (by decide)
  have hnone : (decide (SchemeKind.of scheme = .special) && a.host.text.isEmpty) = false := by
    by_cases hkind : SchemeKind.of scheme = .special
    · have hhost := h.host
      rw [hkind] at hhost
      simp [Host.IsSpecial.text_ne_nil hhost]
    · simp [hkind]
  have hdefault : (if a.port = defaultPort? scheme then none else a.port) = a.port := by
    split
    · next hport =>
      cases hp : a.port with
      | none => rfl
      | some p => exact absurd (hport.symm.trans hp) (h.port p hp).2
    · rfl
  rw [behindUser]
  dsimp only
  rw [Text.takeWhile_not_append hchars hrest, Text.dropWhile_not_append hchars hrest,
    takeHost_text h.host.plain hport]
  dsimp only
  rw [hnone, if_neg Bool.false_ne_true, List.takeWhile_eq_self_iff.mpr hslash,
    List.dropWhile_eq_nil_iff.mpr hslash, h.port?_portText]
  simp only [Except.bind, hdefault, List.nil_append]

/-- It is read from its text in front of a path, a query or a fragment. -/
theorem parseAuthority_text (h : a.Sound scheme)
    (hfit : (SchemeKind.of scheme).isSpecial = true → a.host.CodesFit) :
    parseAuthority scheme (a.text ++ rest) =
      .ok (build scheme (some a) (pathBehindHost (.of scheme) (pathPart rest)) rest) := by
  rw [h.parseAuthority_eq_behindUser hrest, h.behindUser_eq hrest,
    Host.read_text h.host hfit, takeWhile_userText h.colon_not_mem_user,
    dropWhile_userText h.colon_not_mem_user, encode_of_clear h.user, encode_of_clear h.password]
  have hport : (a.host.isEmpty && !a.portText.isEmpty) = false := by
    by_cases hempty : a.host.isEmpty = true
    · simp [portText, (h.alone hempty).2.2]
    · simp [hempty]
  have huser : (a.host.isEmpty && !(a.user.isEmpty && a.password.isEmpty)) = false := by
    by_cases hempty : a.host.isEmpty = true
    · simp [h.alone hempty]
    · simp [hempty]
  simp only [Except.bind, hport, huser]
  rfl

/-- It is refused if a code in the name of its host is too long. -/
theorem parseAuthority_text_of_not_codesFit (h : a.Sound scheme)
    (hkind : SchemeKind.of scheme = .special) (hfit : ¬ a.host.CodesFit) :
    parseAuthority scheme (a.text ++ rest) = .error .invalidName := by
  have hhost := h.host
  rw [hkind] at hhost
  have hread : Host.read (.of scheme) a.host.text = .error .invalidName := by
    rw [hkind]
    exact Host.ofSpecial_text_of_not_codesFit hhost hfit
  rw [h.parseAuthority_eq_behindUser hrest, h.behindUser_eq hrest, hread]
  rfl

end Authority.Sound

/-- A host alone is read in front of a path, a query or a fragment, however it is spelled. -/
theorem parseAuthority_of_ofSpecial {host : Host} (hkind : SchemeKind.of scheme = .special)
    (hs : ∀ c ∈ s, isHostChar c = true ∧ c ≠ ':' ∧ c ≠ '[' ∧ c ≠ ']')
    (hread : Host.ofSpecial s = .ok host)
    (hrest : ∀ c ∈ rest.head?, SchemeKind.special.endsAuthority c = true) :
    parseAuthority scheme (s ++ rest) =
      .ok (build scheme (some { host }) (pathBehindHost .special (pathPart rest)) rest) := by
  have hends : ∀ c ∈ s, SchemeKind.special.endsAuthority c = false :=
    fun c hc => not_endsAuthority (hs c hc).1
  have hat : '@' ∉ s := fun hmem => absurd (hs '@' hmem).1 (by decide)
  have hne : s.isEmpty = false := by
    cases s with
    | nil => cases hread
    | cons c s => rfl
  have hhost : takeHost false s = (s, []) := by
    have happend : takeHost false (s ++ []) = (s ++ (takeHost false []).1, (takeHost false []).2) :=
      takeHost_append fun c hc => ⟨.inl (hs c hc).2.1, (hs c hc).2.2⟩
    simpa [takeHost] using happend
  rw [parseAuthority_eq]
  dsimp only
  rw [hkind, Text.takeWhile_not_append hends hrest, Text.splitLast?_of_not_mem hat]
  dsimp only
  rw [behindUser]
  dsimp only
  rw [hkind, Text.takeWhile_not_append hends hrest, Text.dropWhile_not_append hends hrest, hhost]
  dsimp only
  rw [hne, Host.read]
  simp [SchemeKind.isSpecial, hread, Except.bind, port?, encode]

end Url

end Nullness
