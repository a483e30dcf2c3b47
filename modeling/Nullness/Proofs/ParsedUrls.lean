import Nullness.Proofs.Authorities

/-!
# What URLs are like

Every URL that is read has one of four forms. There is a host and a path behind it, or the host
and the path of a file, or a rooted path alone, or a path without a root. Each part is encoded so
far that it does not end early.

- `Url.Sound`: what a URL that is read is like.
- `Url.sound_of_parse`: reading gives nothing else.
- `Url.Sound.withPath_rooted`, `Url.Sound.withPath_rootless`: a new path in place of the old one
  changes nothing in this.
-/

namespace Nullness

namespace Url

variable {u : Url} {scheme s rest : List Char} {c : Char} {kind : SchemeKind}
  {authority : Option Authority} {path : Path} {ss : List (List Char)}

/-- The head of what is left does not satisfy the condition. -/
theorem of_dropWhile_eq_cons {p : Char → Bool} (h : s.dropWhile p = c :: rest) : p c = false := by
  have hne : s.dropWhile p ≠ [] := by
    rw [h]
    exact List.cons_ne_nil c rest
  have := List.head_dropWhile_not p hne
  simpa only [h, List.head_cons] using this

/-! ## Schemes -/

/-- A scheme in lower case. -/
structure IsScheme (scheme : List Char) : Prop where
  front : ∃ c ∈ scheme.head?, c.isAlpha = true
  chars : ∀ c ∈ scheme, isSchemeChar c = true
  low : Text.Low scheme

theorem lt_of_isSchemeChar (h : isSchemeChar c = true) : c.toNat < 128 := by
  simp only [isSchemeChar, Char.isAlphanum, Bool.or_eq_true, beq_iff_eq] at h
  rcases h with (((h | h) | rfl) | rfl) | rfl
  · exact lt_of_isAlpha h
  · simp only [Char.isDigit, ge_iff_le, Bool.and_eq_true, decide_eq_true_eq,
      UInt32.le_iff_toNat_le] at h
    exact Nat.lt_of_le_of_lt h.2 (by decide)
  all_goals decide

theorem isSchemeChar_toLower (h : isSchemeChar c = true) : isSchemeChar c.toLower = true := by
  have hall : ∀ n < 128, isSchemeChar (Char.ofNat n) = true →
      isSchemeChar (Char.ofNat n).toLower = true := by decide +kernel
  exact of_ascii (P := fun c => isSchemeChar c = true → isSchemeChar c.toLower = true) hall
    (lt_of_isSchemeChar h) h

theorem isAlpha_toLower (h : c.isAlpha = true) : c.toLower.isAlpha = true := by
  have hall : ∀ n < 128, (Char.ofNat n).isAlpha = true → (Char.ofNat n).toLower.isAlpha = true := by
    decide +kernel
  exact of_ascii (P := fun c => c.isAlpha = true → c.toLower.isAlpha = true) hall
    (lt_of_isAlpha h) h

theorem isScheme_of_splitScheme? (h : splitScheme? s = some (scheme, rest)) :
    IsScheme scheme ∧ ∃ front, s = front ++ ':' :: rest := by
  rw [splitScheme?] at h
  split at h
  · next c rest' hdrop =>
    split at h
    · next hfront =>
      cases h
      simp only [Bool.and_eq_true, List.all_eq_true] at hfront
      obtain ⟨hhead, hchars⟩ := hfront
      refine ⟨⟨?_, ?_, ?_⟩, s.takeWhile (· ≠ ':'), ?_⟩
      · rw [List.head?_map]
        cases hc : (unbroken (s.takeWhile (· ≠ ':'))).head? with
        | none =>
            rw [hc] at hhead
            cases hhead
        | some c =>
            rw [hc] at hhead
            exact ⟨c.toLower, rfl, isAlpha_toLower hhead⟩
      · intro c hc
        obtain ⟨d, hd, rfl⟩ := List.mem_map.mp hc
        exact isSchemeChar_toLower (hchars d hd)
      · intro c hc
        obtain ⟨d, -, rfl⟩ := List.mem_map.mp hc
        exact Char.isUpper_toLower_eq_false d
      · have hcolon : c = ':' := by simpa using of_dropWhile_eq_cons hdrop
        rw [← hcolon, ← hdrop, hcolon, List.takeWhile_append_dropWhile]
    · cases h
  · cases h

/-! ## Forms -/

/-- A path without a root. Only in front of a query or a fragment it can end in a blank. -/
structure IsRootless (u : Url) (text : List Char) : Prop where
  clear : Clear controls text
  ends : ∀ c ∈ text, endsPath c = false
  front : text.head? ≠ some '/'
  back : u.query = none → u.fragment = none → ∀ c ∈ text.getLast?, ' ' < c

/-- The four forms of a URL. -/
inductive Formed (u : Url) : Prop
  /-- A host and the path behind it. -/
  | hosted {a : Authority} {ss : List (List Char)} (hkind : SchemeKind.of u.scheme ≠ .file)
      (hauthority : u.authority = some a) (hpath : u.path = .rooted ss) (ha : a.Sound u.scheme)
      (hss : SchemeKind.of u.scheme = .other ∧ ss = [] ∨ Walked (.of u.scheme) ss)
  /-- The host of a file, which is not this machine by its name, and the path of the file. -/
  | file {host : Host} {ss : List (List Char)} (hkind : SchemeKind.of u.scheme = .file)
      (hauthority : u.authority = some { host }) (hpath : u.path = .rooted ss)
      (hhost : host = .name [] ∨ host.IsSpecial ∧ host ≠ localhost) (hss : Walked .file ss)
  /-- A rooted path alone. -/
  | rooted {ss : List (List Char)} (hkind : SchemeKind.of u.scheme = .other)
      (hauthority : u.authority = none) (hpath : u.path = .rooted ss) (hss : Walked .other ss)
  /-- A path without a root. -/
  | rootless {text : List Char} (hkind : SchemeKind.of u.scheme = .other)
      (hauthority : u.authority = none) (hpath : u.path = .rootless text)
      (htext : IsRootless u text)

/-- The set of a query. -/
def querySetOf (kind : SchemeKind) : EncodeSet :=
  if kind.isSpecial then specialQuerySet else querySet

/-- What a URL that is read is like. -/
structure Sound (u : Url) : Prop where
  scheme : IsScheme u.scheme
  query : ∀ q ∈ u.query, Clear (querySetOf (.of u.scheme)) q
  fragment : ∀ f ∈ u.fragment, Clear fragmentSet f
  form : Formed u

/-! ## Reading -/

theorem clear_query_build (scheme : List Char) (authority : Option Authority) (path : Path)
    (rest : List Char) :
    ∀ q ∈ (build scheme authority path rest).query, Clear (querySetOf (.of scheme)) q := by
  intro q hq
  have hspares : SparesEscapes (querySetOf (.of scheme)) := by
    rw [querySetOf]
    split
    · exact sparesEscapes_specialQuerySet
    · exact sparesEscapes_querySet
  simp only [build, tail] at hq
  split at hq
  · cases hq
    exact clear_encode hspares
  · cases hq

theorem clear_fragment_build (scheme : List Char) (authority : Option Authority) (path : Path)
    (rest : List Char) :
    ∀ f ∈ (build scheme authority path rest).fragment, Clear fragmentSet f := by
  intro f hf
  simp only [build, tail] at hf
  split at hf
  · cases hf
    exact clear_encode sparesEscapes_fragmentSet
  · cases hf

theorem sound_build (hscheme : IsScheme scheme)
    (hform : Formed (build scheme authority path rest)) :
    Sound (build scheme authority path rest) :=
  ⟨hscheme, clear_query_build scheme authority path rest,
    clear_fragment_build scheme authority path rest, hform⟩

/-- The path behind a host is walked along, or there is none. -/
theorem pathBehindHost_cases (kind : SchemeKind) (s : List Char) :
    (kind = .other ∧ s = [] ∧ pathBehindHost kind s = .rooted []) ∨
      ∃ ss, pathBehindHost kind s = .rooted ss ∧ Walked kind ss := by
  rw [pathBehindHost]
  split
  · next hnone =>
    simp only [Bool.and_eq_true, List.isEmpty_iff] at hnone
    refine .inl ⟨?_, hnone.1, rfl⟩
    cases kind
    · exact absurd hnone.2 (by decide)
    · exact absurd hnone.2 (by decide)
    · rfl
  · obtain ⟨ss, hpath, hss⟩ := Walk.walked_along kind ((behindSlash? kind s).getD s)
    exact .inr ⟨ss, hpath, hss⟩

theorem sound_of_parseAuthority_build (hscheme : IsScheme scheme)
    (hkind : SchemeKind.of scheme ≠ .file) (h : parseAuthority scheme s = .ok u) : u.Sound := by
  obtain ⟨a, rest, ha, rfl⟩ := sound_of_parseAuthority h
  rcases pathBehindHost_cases (.of scheme) (pathPart rest) with ⟨hother, -, hpath⟩ |
    ⟨ss, hpath, hss⟩
  · exact sound_build hscheme (.hosted hkind rfl hpath ha (.inl ⟨hother, rfl⟩))
  · exact sound_build hscheme (.hosted hkind rfl hpath ha (.inr hss))

theorem sound_fileHere (hscheme : IsScheme scheme) (hkind : SchemeKind.of scheme = .file)
    (s : List Char) : (fileHere scheme s).Sound := by
  obtain ⟨ss, hpath, hss⟩ := Walk.walked_along .file (pathPart s)
  exact sound_build hscheme (.file hkind rfl hpath (.inl rfl) hss)

theorem sound_of_parseFile (hscheme : IsScheme scheme) (hkind : SchemeKind.of scheme = .file)
    (h : parseFile scheme s = .ok u) : u.Sound := by
  have hhere := sound_fileHere hscheme hkind
  rw [parseFile] at h
  split at h
  · cases h
    exact hhere _
  · split at h
    · cases h
      exact hhere _
    · dsimp only at h
      split at h
      · cases h
        exact hhere _
      · split at h
        · cases h
          exact hhere _
        · obtain ⟨host, hhost, h⟩ := exists_of_bind_eq_ok h
          split at h
          · cases h
            exact hhere _
          · next hlocal =>
            cases h
            obtain ⟨ss, hpath, hss⟩ := Walk.walked_along .file _
            refine sound_build hscheme (.file hkind rfl hpath ?_ hss)
            split
            · exact .inl rfl
            · exact .inr ⟨Host.isSpecial_of_ofSpecial hhost, hlocal⟩

/-! ### Paths without a root -/

/-- Without a query and a fragment the whole rest is the path. -/
theorem pathPart_of_build (hquery : (build scheme authority path rest).query = none)
    (hfragment : (build scheme authority path rest).fragment = none) : pathPart rest = rest := by
  have hdrop : rest.dropWhile (!endsPath ·) = [] := by
    cases hcons : rest.dropWhile (!endsPath ·) with
    | nil => rfl
    | cons c t =>
        have hc : endsPath c = true := by simpa using of_dropWhile_eq_cons hcons
        simp only [endsPath, Bool.or_eq_true, beq_iff_eq] at hc
        rcases hc with rfl | rfl
        · simp [build, tail, hcons, unbroken, isBreak] at hquery
        · simp [build, tail, hcons, unbroken, isBreak] at hfragment
  have hsplit := List.takeWhile_append_dropWhile (p := (!endsPath ·)) (l := rest)
  rwa [hdrop, List.append_nil] at hsplit

theorem not_isBreak_of_blank_lt (h : ' ' < c) : isBreak c = false :=
  not_isBreak_of (P := (' ' < ·)) h (by decide) (by decide) (by decide)

theorem blank_lt_getLast?_trimmed (s : List Char) : ∀ c ∈ (trimmed s).getLast?, ' ' < c := by
  intro c hc
  rw [trimmed, List.getLast?_reverse] at hc
  obtain ⟨rest, hrest⟩ := List.head?_eq_some_iff.mp hc
  simpa using of_dropWhile_eq_cons hrest

theorem blank_lt_getLast?_unbroken (h : ∀ c ∈ s.getLast?, ' ' < c) :
    ∀ c ∈ (unbroken s).getLast?, ' ' < c := by
  rcases List.eq_nil_or_concat s with rfl | ⟨s, d, rfl⟩
  · exact h
  · rw [List.concat_eq_append] at h ⊢
    have hd : ' ' < d := h d List.getLast?_concat
    intro c hc
    rw [unbroken, List.filter_append, List.filter_singleton, not_isBreak_of_blank_lt hd] at hc
    simp only [Bool.not_false, cond_true, List.getLast?_concat] at hc
    cases hc
    exact hd

theorem blank_lt_getLast?_encode (h : ∀ c ∈ s.getLast?, ' ' < c) :
    ∀ c ∈ (encode controls s).getLast?, ' ' < c := by
  intro c hc
  obtain ⟨d, hd, hc⟩ := exists_of_mem_getLast?_encode hc
  refine forall_mem_encode (P := (' ' < ·)) (fun e he _ => ?_) (by decide) (by decide) c hc
  rw [List.mem_singleton.mp he]
  exact h d hd

/-- What is encoded of a path without a root is one. -/
theorem isRootless_encode {text : List Char} (hends : ∀ c ∈ text, endsPath c = false)
    (hfront : text.head? ≠ some '/')
    (hback : u.query = none → u.fragment = none → ∀ c ∈ text.getLast?, ' ' < c) :
    IsRootless u (encode controls text) := by
  refine ⟨clear_encode sparesEscapes_controls, ?_, fun hslash => ?_,
    fun hquery hfragment => blank_lt_getLast?_encode (hback hquery hfragment)⟩
  · exact forall_mem_encode (fun c hc _ => hends c hc) (by decide) (by decide)
  · obtain ⟨d, hd, hc⟩ := exists_of_mem_head?_encode hslash
    refine forall_mem_encode (P := (· ≠ '/')) (fun e he _ => ?_) (by decide) (by decide) '/' hc rfl
    rw [List.mem_singleton.mp he]
    rintro rfl
    exact hfront hd

theorem isRootless_pathPart (hslash : rest.head? ≠ some '/')
    (hrest : ∀ c ∈ rest.getLast?, ' ' < c) :
    IsRootless (build scheme authority path rest) (encode controls (pathPart rest)) := by
  refine isRootless_encode (fun c hc => ?_) (fun hfront => hslash ?_) fun hquery hfragment => ?_
  · simpa using List.mem_takeWhile_imp hc
  · rw [pathPart, List.head?_takeWhile] at hfront
    exact (Option.filter_eq_some_iff.mp hfront).1
  · rw [pathPart_of_build hquery hfragment]
    exact hrest

/-! ### Any URL -/

/-- A URL that is read is like that. -/
theorem sound_of_parse (h : parse s = .ok u) : u.Sound := by
  rw [parse] at h
  split at h
  · cases h
  · next scheme s' hsplit =>
    obtain ⟨hscheme, front, hfront⟩ := isScheme_of_splitScheme? hsplit
    dsimp only at h
    split at h
    · next hkind => exact sound_of_parseFile hscheme hkind h
    · next hkind =>
      exact sound_of_parseAuthority_build hscheme (by rw [hkind]; decide) h
    · next hkind =>
      split at h
      · exact sound_of_parseAuthority_build hscheme (by rw [hkind]; decide) h
      · next t hcons =>
        cases h
        rcases pathBehindHost_cases .other (pathPart (unbroken s')) with ⟨-, hnil, -⟩ |
          ⟨ss, hpath, hss⟩
        · rw [hcons, pathPart] at hnil
          cases hnil
        · exact sound_build hscheme (.rooted hkind rfl hpath hss)
      · next hslash =>
        cases h
        refine sound_build hscheme (.rootless hkind rfl rfl (isRootless_pathPart ?_ ?_))
        · intro hhead
          obtain ⟨t, ht⟩ := List.head?_eq_some_iff.mp hhead
          exact hslash t ht
        · refine blank_lt_getLast?_unbroken fun c hc => blank_lt_getLast?_trimmed s c ?_
          rw [hfront, List.getLast?_append, List.getLast?_cons, hc]
          rfl

/-! ## Another path -/

theorem withPath_eq (u : Url) (text : List Char) :
    u.withPath text = { u with path := (u.withPath text).path } := by
  rw [withPath]
  split <;> rfl

theorem withPath_rooted (hpath : u.path = .rooted ss) (text : List Char) :
    u.withPath text = { u with path := .ofText (.of u.scheme) text } := by
  rw [withPath, hpath]

theorem withPath_rootless {old : List Char} (hpath : u.path = .rootless old) (text : List Char) :
    u.withPath text = { u with path := .rootless (encode controls text) } := by
  rw [withPath, hpath]

/-- A walk along another text takes nothing from a URL with a rooted path. -/
theorem Sound.withPath_rooted (h : u.Sound) (hpath : u.path = .rooted ss) (text : List Char) :
    (u.withPath text).Sound := by
  obtain ⟨ts, hts, hwalked⟩ := Walk.walked_along (.of u.scheme) text.tail
  rw [Url.withPath_rooted hpath]
  refine ⟨h.scheme, h.query, h.fragment, ?_⟩
  cases h.form with
  | hosted hkind hauthority _ ha _ => exact .hosted hkind hauthority hts ha (.inr hwalked)
  | file hkind hauthority _ hhost _ =>
      exact .file hkind hauthority hts hhost (hkind ▸ hwalked)
  | rooted hkind hauthority _ _ => exact .rooted hkind hauthority hts (hkind ▸ hwalked)
  | rootless _ _ hother _ => cases hpath.symm.trans hother

theorem Sound.withPath_rootless (h : u.Sound) {old text : List Char}
    (hpath : u.path = .rootless old) (hends : ∀ c ∈ text, endsPath c = false)
    (hfront : text.head? ≠ some '/') (hback : ∀ c ∈ text.getLast?, ' ' < c) :
    (u.withPath text).Sound := by
  rw [Url.withPath_rootless hpath]
  refine ⟨h.scheme, h.query, h.fragment, ?_⟩
  cases h.form with
  | hosted _ _ hother _ _ => cases hpath.symm.trans hother
  | file _ _ hother _ _ => cases hpath.symm.trans hother
  | rooted _ _ hother _ => cases hpath.symm.trans hother
  | rootless hkind hauthority _ _ =>
      exact .rootless hkind hauthority rfl (isRootless_encode hends hfront fun _ _ => hback)

end Url

end Nullness
