import Nullness.Proofs.ParsedUrls

/-!
# URLs are read as they are written

The text of a URL is its scheme, the part behind two slashes, its path, and behind their marks the
query and the fragment. Each part ends where the next one begins, and reading leaves it as it is.
Three things are not read as they are written: a code in the name of a host that is too long to be
found, a step in the path of a file, and a drive in front of the path of a file with a host.

- `Url.Settled`: none of the three is in the URL.
- `Url.parse_text`: a URL without them is read from its text.
- `Url.parse_text_iff`: with one of them it is not.
-/

namespace Nullness

namespace Url

variable {u : Url} {scheme s t : List Char} {c : Char} {kind : SchemeKind}
  {authority : Option Authority} {path : Path} {ss : List (List Char)}

/-! ## Scheme and blanks -/

theorem trimmed_eq (hfront : ∀ c ∈ s.head?, ' ' < c) (hback : ∀ c ∈ s.getLast?, ' ' < c) :
    trimmed s = s := by
  have hkeep : ∀ r : List Char, (∀ c ∈ r.head?, ' ' < c) → r.dropWhile (· ≤ ' ') = r := by
    intro r hr
    cases r with
    | nil => rfl
    | cons c r => exact List.dropWhile_cons_of_neg (by simpa using hr c rfl)
  rw [trimmed, hkeep s hfront, hkeep s.reverse (by rwa [List.head?_reverse]), List.reverse_reverse]

theorem not_isBreak_of_isSchemeChar (h : isSchemeChar c = true) : isBreak c = false :=
  not_isBreak_of (P := (isSchemeChar · = true)) h (by decide) (by decide) (by decide)

theorem IsScheme.splitScheme?_append (h : IsScheme scheme) (s : List Char) :
    splitScheme? (scheme ++ ':' :: s) = some (scheme, s) := by
  have hcolon : ':' ∉ scheme := fun hmem => absurd (h.chars ':' hmem) (by decide)
  have hhead : ∀ c ∈ (':' :: s).head?, c = ':' := by simp
  obtain ⟨c, hc, halpha⟩ := h.front
  rw [splitScheme?, Text.takeWhile_ne_append hcolon hhead,
    Text.dropWhile_ne_append hcolon hhead,
    unbroken_of_forall fun c hc => not_isBreak_of_isSchemeChar (h.chars c hc), hc]
  simp only [Option.map_some, halpha, Option.getD_some, List.all_eq_true.mpr h.chars, Bool.and_self,
    if_true, h.low.map_toLower]

theorem IsScheme.blank_lt_head? (h : IsScheme scheme) : ∀ c ∈ (scheme ++ t).head?, ' ' < c := by
  obtain ⟨d, hd, halpha⟩ := h.front
  obtain ⟨rest, rfl⟩ := List.head?_eq_some_iff.mp hd
  intro c hc
  cases hc
  have hall : ∀ n < 128, (Char.ofNat n).isAlpha = true → ' ' < Char.ofNat n := by decide
  exact of_ascii (P := fun c => c.isAlpha = true → ' ' < c) hall (lt_of_isAlpha halpha) halpha

/-- A URL behind its scheme, in a text without breaks. -/
def parseBehind (scheme s : List Char) : Except UrlError Url :=
  match SchemeKind.of scheme with
  | .file => parseFile scheme s
  | .special => parseAuthority scheme (s.dropWhile SchemeKind.special.endsSegment)
  | .other =>
    match s with
    | '/' :: '/' :: rest => parseAuthority scheme rest
    | '/' :: _ => .ok (build scheme none (pathBehindHost .other (pathPart s)) s)
    | _ => .ok (build scheme none (.rootless (encode controls (pathPart s))) s)

/-- The text behind the scheme decides what is read, if it has no breaks and ends in no blank. -/
theorem IsScheme.parse_append (h : IsScheme scheme) (hs : ∀ c ∈ s, isBreak c = false)
    (hback : ∀ c ∈ s.getLast?, ' ' < c) : parse (scheme ++ ':' :: s) = parseBehind scheme s := by
  have hlast : ∀ c ∈ (scheme ++ ':' :: s).getLast?, ' ' < c := by
    intro c hc
    rw [List.getLast?_append, List.getLast?_cons, Option.some_or] at hc
    cases hlast : s.getLast? with
    | none =>
        rw [hlast] at hc
        cases hc
        decide
    | some d =>
        rw [hlast] at hc
        cases hc
        exact hback _ hlast
  rw [parse, trimmed_eq h.blank_lt_head? hlast, h.splitScheme?_append]
  dsimp only
  rw [unbroken_of_forall hs]
  rfl

/-! ## Behind the path -/

/-- The query and the fragment, each behind its mark. -/
def behindPath (u : Url) : List Char := marked '?' u.query ++ marked '#' u.fragment

theorem endsPath_of_mem_head?_behindPath : ∀ c ∈ u.behindPath.head?, endsPath c = true := by
  intro c hc
  rw [behindPath] at hc
  cases hquery : u.query with
  | some q =>
      rw [hquery] at hc
      cases hc
      rfl
  | none =>
      cases hfragment : u.fragment with
      | some f =>
          rw [hquery, hfragment] at hc
          cases hc
          rfl
      | none =>
          rw [hquery, hfragment] at hc
          cases hc

theorem blank_lt_of_querySetOf (h : querySetOf kind c = false) : ' ' < c := by
  have hquery : querySet c = false := by
    rw [querySetOf] at h
    split at h
    · exact (Bool.or_eq_false_iff.mp h).1
    · exact h
  refine blank_lt_of_controls (Bool.or_eq_false_iff.mp hquery).1 ?_
  rintro rfl
  exact absurd hquery (by decide)

theorem blank_lt_of_fragmentSet (h : fragmentSet c = false) : ' ' < c := by
  refine blank_lt_of_controls (Bool.or_eq_false_iff.mp h).1 ?_
  rintro rfl
  exact absurd h (by decide)

theorem Sound.blank_lt_behindPath (h : u.Sound) : ∀ c ∈ u.behindPath, ' ' < c := by
  intro c hc
  rcases List.mem_append.mp hc with hc | hc
  · cases hquery : u.query with
    | none =>
        rw [hquery] at hc
        cases hc
    | some q =>
        rw [hquery] at hc
        rcases List.mem_cons.mp hc with rfl | hc
        · decide
        · exact blank_lt_of_querySetOf (h.query q hquery c hc)
  · cases hfragment : u.fragment with
    | none =>
        rw [hfragment] at hc
        cases hc
    | some f =>
        rw [hfragment] at hc
        rcases List.mem_cons.mp hc with rfl | hc
        · decide
        · exact blank_lt_of_fragmentSet (h.fragment f hfragment c hc)

theorem Sound.tail_behindPath (h : u.Sound) :
    tail (.of u.scheme) u.behindPath = (u.query, u.fragment) := by
  have hmark : ∀ c ∈ (marked '#' u.fragment).head?, c = '#' := by
    intro c hc
    cases hfragment : u.fragment with
    | none =>
        rw [hfragment] at hc
        cases hc
    | some f =>
        rw [hfragment] at hc
        cases hc
        rfl
  have hquery : '#' ∉ marked '?' u.query := by
    intro hmem
    cases hquery : u.query with
    | none =>
        rw [hquery] at hmem
        cases hmem
    | some q =>
        rw [hquery] at hmem
        have hq := h.query q hquery '#' (by simpa [marked] using hmem)
        rw [querySetOf] at hq
        split at hq <;> exact absurd hq (by decide)
  rw [tail, behindPath, Text.takeWhile_ne_append hquery hmark,
    Text.dropWhile_ne_append hquery hmark]
  refine Prod.ext ?_ ?_
  · cases hquery : u.query with
    | none => rfl
    | some q => exact congrArg some (encode_of_clear (h.query q hquery))
  · cases hfragment : u.fragment with
    | none => rfl
    | some f => exact congrArg some (encode_of_clear (h.fragment f hfragment))

theorem pathPart_append_behindPath (hs : ∀ c ∈ s, endsPath c = false) :
    pathPart (s ++ u.behindPath) = s :=
  Text.takeWhile_not_append hs endsPath_of_mem_head?_behindPath

theorem Sound.build_append_behindPath (h : u.Sound) (hs : ∀ c ∈ s, endsPath c = false) :
    build u.scheme authority path (s ++ u.behindPath) = { u with authority, path } := by
  rw [build, Text.dropWhile_not_append hs endsPath_of_mem_head?_behindPath,
    unbroken_of_forall fun c hc => not_isBreak_of_blank_lt (h.blank_lt_behindPath c hc),
    h.tail_behindPath]

/-! ## Behind the scheme -/

/-- What stands in front of the path: a host, or what sets the path off from one. -/
def front (u : Url) : List Char :=
  match u.authority with
  | some a => ['/', '/'] ++ a.text
  | none => if u.path.text.take 2 = ['/', '/'] then ['/', '.'] else []

/-- The text behind the scheme. -/
def body (u : Url) : List Char := u.front ++ (u.path.text ++ u.behindPath)

theorem text_eq (u : Url) : u.text = u.scheme ++ ':' :: u.body := by
  have htext : u.text = u.scheme ++ [':'] ++ u.front ++ u.path.text ++ marked '?' u.query ++
      marked '#' u.fragment := rfl
  simp [htext, body, behindPath]

theorem blank_lt_of_pathSet (h : pathSet c = false) : ' ' < c :=
  blank_lt_of_fragmentSet (Bool.or_eq_false_iff.mp h).1

theorem not_endsPath_of_pathSet (h : pathSet c = false) : endsPath c = false := by
  refine Bool.eq_false_iff.mpr fun hends => ?_
  simp only [endsPath, Bool.or_eq_true, beq_iff_eq] at hends
  rcases hends with rfl | rfl <;> exact absurd h (by decide)

theorem clear_text_rooted (h : ∀ s ∈ ss, PlainSegment kind s) :
    Clear pathSet (Path.rooted ss).text := by
  intro c hc
  obtain ⟨s, hs, hc⟩ := List.mem_flatMap.mp hc
  rcases List.mem_cons.mp hc with rfl | hc
  · decide
  · exact (h s hs c hc).1

/-- A path is rooted and clear, or it has no root and there is no host. -/
theorem Formed.path_cases (h : Formed u) :
    (∃ ss, u.path = .rooted ss ∧ Clear pathSet u.path.text) ∨
      ∃ text, u.path = .rootless text ∧ IsRootless u text ∧ u.front = [] := by
  cases h with
  | hosted _ _ hpath _ hss =>
      refine .inl ⟨_, hpath, hpath ▸ ?_⟩
      rcases hss with ⟨-, rfl⟩ | hss
      · simp [Clear, Path.text]
      · exact clear_text_rooted hss.plain
  | file _ _ hpath _ hss => exact .inl ⟨_, hpath, hpath ▸ clear_text_rooted hss.plain⟩
  | rooted _ _ hpath hss => exact .inl ⟨_, hpath, hpath ▸ clear_text_rooted hss.plain⟩
  | rootless _ hauthority hpath htext =>
      refine .inr ⟨_, hpath, htext, ?_⟩
      have hnot : ¬ u.path.text.take 2 = ['/', '/'] := by
        intro htake
        rw [hpath] at htake
        have hhead := congrArg List.head? htake
        rw [List.head?_take, if_neg (by decide)] at hhead
        exact htext.front hhead
      rw [front, hauthority]
      exact if_neg hnot

theorem text_of_host (host : Host) : ({ host } : Authority).text = host.text := by
  simp [Authority.text]

theorem plain_of_file {host : Host} (h : host = .name [] ∨ host.IsSpecial ∧ host ≠ localhost) :
    host.Plain := by
  rcases h with rfl | ⟨h, -⟩
  · simp [Host.Plain]
  · exact h.plain

theorem Formed.blank_lt_front (h : Formed u) : ∀ c ∈ u.front, ' ' < c := by
  have halone : ∀ c ∈ (if u.path.text.take 2 = ['/', '/'] then ['/', '.'] else []), ' ' < c := by
    split <;> simp
  have hhost : ∀ s : List Char, (∀ c ∈ s, ' ' < c) → ∀ c ∈ ['/', '/'] ++ s, ' ' < c := by
    intro s hs c hc
    simp only [List.cons_append, List.nil_append, List.mem_cons] at hc
    rcases hc with rfl | rfl | hc
    · decide
    · decide
    · exact hs c hc
  rw [front]
  cases h with
  | hosted _ hauthority _ ha _ =>
      rw [hauthority]
      exact hhost _ ha.blank_lt_text
  | file _ hauthority _ hhost' _ =>
      rw [hauthority]
      refine hhost _ fun c hc => ?_
      rw [text_of_host] at hc
      exact blank_lt_of_isHostChar ((plain_of_file hhost').isHostChar c hc)
  | rooted _ hauthority _ _ =>
      rw [hauthority]
      exact halone
  | rootless _ hauthority _ _ =>
      rw [hauthority]
      exact halone

theorem Sound.not_endsPath_text (h : u.Sound) : ∀ c ∈ u.path.text, endsPath c = false := by
  intro c hc
  rcases h.form.path_cases with ⟨ss, -, hclear⟩ | ⟨text, hpath, htext, -⟩
  · exact not_endsPath_of_pathSet (hclear c hc)
  · rw [hpath] at hc
    exact htext.ends c hc

theorem Sound.not_endsPath_rooted (h : u.Sound) (hpath : u.path = .rooted ss) :
    ∀ c ∈ (Path.rooted ss).text, endsPath c = false := by
  rw [← hpath]
  exact h.not_endsPath_text

theorem Sound.not_isBreak_body (h : u.Sound) : ∀ c ∈ u.body, isBreak c = false := by
  intro c hc
  rcases List.mem_append.mp hc with hc | hc
  · exact not_isBreak_of_blank_lt (h.form.blank_lt_front c hc)
  · rcases List.mem_append.mp hc with hc | hc
    · rcases h.form.path_cases with ⟨ss, -, hclear⟩ | ⟨text, hpath, htext, -⟩
      · exact not_isBreak_of_blank_lt (blank_lt_of_pathSet (hclear c hc))
      · rw [hpath] at hc
        exact not_isBreak_of_controls (htext.clear c hc)
    · exact not_isBreak_of_blank_lt (h.blank_lt_behindPath c hc)

theorem behindPath_eq_nil_iff : u.behindPath = [] ↔ u.query = none ∧ u.fragment = none := by
  rw [behindPath, List.append_eq_nil_iff]
  refine and_congr ?_ ?_
  · cases u.query <;> simp [marked]
  · cases u.fragment <;> simp [marked]

theorem Sound.blank_lt_getLast?_body (h : u.Sound) : ∀ c ∈ u.body.getLast?, ' ' < c := by
  intro c hc
  -- a path without a root can end in a blank, but only with something behind it
  by_cases hnil : u.behindPath = []
  · rw [body, hnil, List.append_nil] at hc
    obtain ⟨hquery, hfragment⟩ := behindPath_eq_nil_iff.mp hnil
    rcases h.form.path_cases with ⟨ss, -, hclear⟩ | ⟨text, hpath, htext, hfront⟩
    · rcases List.mem_append.mp (List.mem_of_getLast? hc) with hc | hc
      · exact h.form.blank_lt_front c hc
      · exact blank_lt_of_pathSet (hclear c hc)
    · rw [hfront, hpath] at hc
      exact htext.back hquery hfragment c hc
  · rw [body, ← List.append_assoc, List.getLast?_append,
      List.getLast?_eq_some_getLast hnil, Option.some_or] at hc
    cases hc
    exact h.blank_lt_behindPath _ (List.getLast_mem hnil)

/-- The text of a URL is read behind its scheme. -/
theorem Sound.parse_text_eq (h : u.Sound) : parse u.text = parseBehind u.scheme u.body := by
  rw [text_eq]
  exact h.scheme.parse_append h.not_isBreak_body h.blank_lt_getLast?_body

/-! ## A host and a path -/

theorem text_rooted_cons (h : Walked kind ss) :
    (Path.rooted ss).text = '/' :: (Path.rooted ss).text.tail := by
  rw [Walk.text_rooted h.ne_nil]
  rfl

theorem behindSlash?_slash (kind : SchemeKind) (s : List Char) :
    behindSlash? kind ('/' :: s) = some s := by
  have hslash : kind.endsSegment '/' = true := by simp [SchemeKind.endsSegment]
  rw [behindSlash?, List.dropWhile_cons_of_neg (by decide)]
  exact if_pos hslash

theorem pathBehindHost_slash (kind : SchemeKind) (s : List Char) :
    pathBehindHost kind ('/' :: s) = (Walk.along kind s).path kind := by
  rw [pathBehindHost, behindSlash?_slash]
  rfl

/-- Behind a host the path is found from its text. -/
theorem pathBehindHost_text (hkind : kind ≠ .file)
    (h : kind = .other ∧ ss = [] ∨ Walked kind ss) :
    pathBehindHost kind (Path.rooted ss).text = .rooted ss := by
  rcases h with ⟨rfl, rfl⟩ | h
  · rfl
  · rw [text_rooted_cons h, pathBehindHost_slash,
      Walk.along_text h (h.steps.of_ne_file hkind) fun hfile => absurd hfile hkind,
      Walk.path_of_walked h]

theorem endsAuthority_of_endsPath (h : endsPath c = true) : kind.endsAuthority c = true := by
  simp only [endsPath, Bool.or_eq_true, beq_iff_eq] at h
  rcases h with rfl | rfl <;> simp [SchemeKind.endsAuthority]

/-- A rooted path with what is behind it ends a host. -/
theorem endsAuthority_of_mem_head? (h : kind = .other ∧ ss = [] ∨ Walked kind ss) :
    ∀ c ∈ ((Path.rooted ss).text ++ u.behindPath).head?, kind.endsAuthority c = true := by
  intro c hc
  rcases h with ⟨-, rfl⟩ | h
  · exact endsAuthority_of_endsPath (endsPath_of_mem_head?_behindPath c hc)
  · rw [text_rooted_cons h] at hc
    cases hc
    simp [SchemeKind.endsAuthority, SchemeKind.endsSegment]

theorem parseBehind_hosted {a : Authority} (hkind : SchemeKind.of scheme ≠ .file)
    (ha : a.Sound scheme) :
    parseBehind scheme ('/' :: '/' :: (a.text ++ t)) = parseAuthority scheme (a.text ++ t) := by
  rw [parseBehind]
  cases hof : SchemeKind.of scheme with
  | file => exact absurd hof hkind
  | other => rfl
  | special =>
      have hhost : a.host.IsSpecial := by
        have := ha.host
        rwa [hof] at this
      have hne : a.text ≠ [] := by
        simp [Authority.text_eq, hhost.text_ne_nil]
      obtain ⟨d, ds, hd⟩ := List.exists_cons_of_ne_nil hne
      have hends : ¬ SchemeKind.special.endsSegment d = true := by
        have : SchemeKind.special.endsAuthority d = false :=
          ha.not_endsAuthority_text d (by simp [hd])
        simp only [SchemeKind.endsAuthority, Bool.or_eq_false_iff] at this
        simp [this]
      dsimp only
      rw [List.dropWhile_cons_of_pos (by decide), List.dropWhile_cons_of_pos (by decide), hd,
        List.cons_append, List.dropWhile_cons_of_neg hends]

/-- A URL with a special scheme is read from the text of its host and what is behind it. -/
theorem IsScheme.parse_of_ofSpecial {host : Host} (h : IsScheme scheme)
    (hkind : SchemeKind.of scheme = .special)
    (hs : ∀ c ∈ s, isHostChar c = true ∧ c ≠ ':' ∧ c ≠ '[' ∧ c ≠ ']')
    (hread : Host.ofSpecial s = .ok host)
    (hrest : ∀ c ∈ t.head?, SchemeKind.special.endsAuthority c = true)
    (hblank : ∀ c ∈ t, ' ' < c) :
    parse (scheme ++ ':' :: '/' :: '/' :: (s ++ t)) =
      .ok (build scheme (some { host }) (pathBehindHost .special (pathPart t)) t) := by
  have hchars : ∀ c ∈ '/' :: '/' :: (s ++ t), ' ' < c := by
    simp only [List.forall_mem_cons, List.forall_mem_append]
    exact ⟨by decide, by decide, fun c hc => blank_lt_of_isHostChar (hs c hc).1, hblank⟩
  have hfront : ∀ c ∈ (s ++ t).head?, SchemeKind.special.endsSegment c = false := by
    cases s with
    | nil => cases hread
    | cons c s =>
        rintro d ⟨⟩
        have hends : SchemeKind.special.endsAuthority c = false :=
          not_endsAuthority (hs c List.mem_cons_self).1
        simp only [SchemeKind.endsAuthority, Bool.or_eq_false_iff] at hends
        exact hends.1.1
  have hslashes : ('/' :: '/' :: (s ++ t)).dropWhile SchemeKind.special.endsSegment = s ++ t := by
    rw [List.dropWhile_cons_of_pos (by decide), List.dropWhile_cons_of_pos (by decide)]
    exact Text.dropWhile_append_stop (s := []) (by simp) hfront
  rw [h.parse_append (fun c hc => not_isBreak_of_blank_lt (hchars c hc))
    fun c hc => hchars c (List.mem_of_getLast? hc), parseBehind, hkind]
  dsimp only
  rw [hslashes]
  exact parseAuthority_of_ofSpecial hkind hs hread hrest

section Hosted
variable {a : Authority} (h : u.Sound) (hkind : SchemeKind.of u.scheme ≠ .file)
  (hauthority : u.authority = some a) (hpath : u.path = .rooted ss) (ha : a.Sound u.scheme)
  (hss : SchemeKind.of u.scheme = .other ∧ ss = [] ∨ Walked (.of u.scheme) ss)
include h hkind hauthority hpath ha

theorem parse_text_hosted_eq :
    parse u.text = parseAuthority u.scheme (a.text ++ ((Path.rooted ss).text ++ u.behindPath)) := by
  rw [h.parse_text_eq, body, front, hauthority, hpath]
  exact parseBehind_hosted hkind ha

include hss

theorem parse_text_hosted (hfit : (SchemeKind.of u.scheme).isSpecial = true → a.host.CodesFit) :
    parse u.text = .ok u := by
  have hends := h.not_endsPath_rooted hpath
  rw [parse_text_hosted_eq h hkind hauthority hpath ha,
    ha.parseAuthority_text (endsAuthority_of_mem_head? hss) hfit, pathPart_append_behindPath hends,
    pathBehindHost_text hkind hss, h.build_append_behindPath hends, ← hauthority, ← hpath]

end Hosted

/-! ## A path alone -/

theorem parseBehind_rooted (hkind : SchemeKind.of scheme = .other) (hs : s.head? ≠ some '/') :
    parseBehind scheme ('/' :: s) =
      .ok (build scheme none (pathBehindHost .other (pathPart ('/' :: s))) ('/' :: s)) := by
  rw [parseBehind, hkind]
  rintro t rfl
  exact hs rfl

theorem parseBehind_rootless (hkind : SchemeKind.of scheme = .other) (hs : s.head? ≠ some '/') :
    parseBehind scheme s =
      .ok (build scheme none (.rootless (encode controls (pathPart s))) s) := by
  rw [parseBehind, hkind]
  all_goals
    rintro t rfl
    exact hs rfl

theorem slash_ne_head?_behindPath : u.behindPath.head? ≠ some '/' :=
  fun hhead => absurd (endsPath_of_mem_head?_behindPath '/' hhead) (by decide)

theorem head?_append_behindPath_ne (hs : s.head? ≠ some '/') :
    (s ++ u.behindPath).head? ≠ some '/' := by
  cases s with
  | nil => exact slash_ne_head?_behindPath
  | cons c s => exact hs

theorem parse_text_rooted (h : u.Sound) (hkind : SchemeKind.of u.scheme = .other)
    (hauthority : u.authority = none) (hpath : u.path = .rooted ss) (hss : Walked .other ss) :
    parse u.text = .ok u := by
  have hends := h.not_endsPath_rooted hpath
  have hfound := pathBehindHost_text (by decide) (.inr hss)
  rw [h.parse_text_eq, body, front, hauthority, hpath]
  dsimp only
  split
  · next htake =>
    -- the path is set off by a dot
    have hdot : ∀ c ∈ '/' :: '.' :: (Path.rooted ss).text, endsPath c = false := by
      simp only [List.forall_mem_cons]
      exact ⟨by decide, by decide, hends⟩
    have halong : pathBehindHost .other ('/' :: '.' :: (Path.rooted ss).text) = .rooted ss := by
      rw [text_rooted_cons hss, pathBehindHost_slash] at hfound ⊢
      rw [Walk.along_dot (by decide), hfound]
    show parseBehind u.scheme ('/' :: ('.' :: ((Path.rooted ss).text ++ u.behindPath))) = _
    rw [parseBehind_rooted hkind (by simp)]
    show Except.ok (build u.scheme none (pathBehindHost .other
      (pathPart (('/' :: '.' :: (Path.rooted ss).text) ++ u.behindPath)))
      (('/' :: '.' :: (Path.rooted ss).text) ++ u.behindPath)) = _
    rw [pathPart_append_behindPath hdot, halong, h.build_append_behindPath hdot, ← hauthority,
      ← hpath]
  · next htake =>
    have hslash : (Path.rooted ss).text.tail.head? ≠ some '/' := by
      intro hhead
      refine htake ?_
      obtain ⟨t, ht⟩ := List.head?_eq_some_iff.mp hhead
      rw [text_rooted_cons hss, ht]
      rfl
    have hbehind := parseBehind_rooted hkind (head?_append_behindPath_ne (u := u) hslash)
    rw [← List.cons_append, ← text_rooted_cons hss] at hbehind
    rw [List.nil_append, hbehind, pathPart_append_behindPath hends, hfound,
      h.build_append_behindPath hends, ← hauthority, ← hpath]

theorem parse_text_rootless (h : u.Sound) (hkind : SchemeKind.of u.scheme = .other)
    (hauthority : u.authority = none) {text : List Char} (hpath : u.path = .rootless text)
    (htext : IsRootless u text) : parse u.text = .ok u := by
  have hfront : u.front = [] := by
    rcases h.form.path_cases with ⟨ss, hrooted, -⟩ | ⟨-, -, -, hfront⟩
    · cases hpath.symm.trans hrooted
    · exact hfront
  rw [h.parse_text_eq, body, hfront, List.nil_append, hpath]
  show parseBehind u.scheme (text ++ u.behindPath) = _
  rw [parseBehind_rootless hkind (head?_append_behindPath_ne htext.front),
    pathPart_append_behindPath htext.ends, encode_of_clear htext.clear,
    h.build_append_behindPath htext.ends, ← hauthority, ← hpath]

/-! ## A file -/

theorem parseBehind_file (hkind : SchemeKind.of scheme = .file) (s : List Char) :
    parseBehind scheme s = parseFile scheme s := by
  simp only [parseBehind, hkind]

/-- The host of a file is found between two slashes and the path. -/
theorem parseFile_slashes (hs : ∀ c ∈ s, isHostChar c = true) (hdrive : isDrive s = false)
    (ht : ∀ c ∈ t.head?, SchemeKind.file.endsAuthority c = true) :
    parseFile scheme ('/' :: '/' :: (s ++ t)) =
      if s.isEmpty then .ok (fileHere scheme t)
      else (Host.ofSpecial s).bind fun host =>
        if host = localhost then .ok (fileHere scheme t)
        else
          let walk := Walk.along .file (pathPart ((behindSlash? .file t).getD t))
          .ok (build scheme (some { host := if walk.fromDrive then .name [] else host })
            (walk.path .file) t) := by
  have hends : ∀ c ∈ s, SchemeKind.file.endsAuthority c = false :=
    fun c hc => not_endsAuthority (hs c hc)
  have hunbroken : unbroken s = s :=
    unbroken_of_forall fun c hc => not_isBreak_of_blank_lt (blank_lt_of_isHostChar (hs c hc))
  rw [parseFile, behindSlash?_slash]
  dsimp only
  rw [behindSlash?_slash]
  dsimp only
  rw [Text.takeWhile_not_append hends ht, Text.dropWhile_not_append hends ht, hunbroken, hdrive]
  rfl

section File
variable {host : Host} (h : u.Sound) (hkind : SchemeKind.of u.scheme = .file)
  (hauthority : u.authority = some { host }) (hpath : u.path = .rooted ss)
  (hss : Walked .file ss)
include h hkind hauthority hpath hss

theorem parse_text_file_empty (hhost : host = .name []) :
    parse u.text = .ok { u with path := (Walk.along .file (Path.rooted ss).text).path .file } := by
  have hends := h.not_endsPath_rooted hpath
  subst hhost
  rw [h.parse_text_eq, parseBehind_file hkind, body, front, hauthority, hpath]
  show parseFile u.scheme ('/' :: '/' :: ([] ++ ((Path.rooted ss).text ++ u.behindPath))) = _
  rw [parseFile_slashes (by simp) rfl (endsAuthority_of_mem_head? (.inr hss)),
    List.isEmpty_nil, if_pos rfl, fileHere,
    pathPart_append_behindPath hends, h.build_append_behindPath hends, ← hauthority]

theorem parse_text_file_eq (hhost : host.IsSpecial) :
    parse u.text = (Host.ofSpecial host.text).bind fun host =>
      if host = localhost then .ok (fileHere u.scheme ((Path.rooted ss).text ++ u.behindPath))
      else
        let walk := Walk.along .file (Path.rooted ss).text.tail
        .ok { u with
          authority := some { host := if walk.fromDrive then .name [] else host }
          path := walk.path .file } := by
  have hends := h.not_endsPath_rooted hpath
  have hempty : host.text.isEmpty = false := by simpa using hhost.text_ne_nil
  have hbehind : pathPart ((behindSlash? .file ((Path.rooted ss).text ++ u.behindPath)).getD
      ((Path.rooted ss).text ++ u.behindPath)) = (Path.rooted ss).text.tail := by
    have htail : ∀ c ∈ (Path.rooted ss).text.tail, endsPath c = false :=
      fun c hc => hends c (List.mem_of_mem_tail hc)
    rw [text_rooted_cons hss, List.cons_append, behindSlash?_slash]
    exact pathPart_append_behindPath htail
  rw [h.parse_text_eq, parseBehind_file hkind, body, front, hauthority, hpath]
  dsimp only
  rw [text_of_host]
  show parseFile u.scheme ('/' :: '/' :: (host.text ++ ((Path.rooted ss).text ++ u.behindPath))) = _
  rw [parseFile_slashes hhost.plain.isHostChar hhost.isDrive_text
    (endsAuthority_of_mem_head? (.inr hss)), hempty, if_neg Bool.false_ne_true, hbehind]
  simp only [h.build_append_behindPath hends]

theorem parse_text_file (hhost : host.IsSpecial) (hlocal : host ≠ localhost)
    (hfit : host.CodesFit) :
    parse u.text = .ok { u with
      authority := some { host :=
        if (Walk.along .file (Path.rooted ss).text.tail).fromDrive then .name [] else host }
      path := (Walk.along .file (Path.rooted ss).text.tail).path .file } := by
  rw [parse_text_file_eq h hkind hauthority hpath hss hhost, Host.ofSpecial_text hhost hfit]
  exact if_neg hlocal

theorem parse_text_file_of_not_codesFit (hhost : host.IsSpecial) (hfit : ¬ host.CodesFit) :
    parse u.text = .error .invalidName := by
  rw [parse_text_file_eq h hkind hauthority hpath hss hhost,
    Host.ofSpecial_text_of_not_codesFit hhost hfit]
  rfl

end File

/-! ## Any URL -/

/-- The segments of a path with a root. -/
def Path.segments : Path → List (List Char)
  | rooted ss => ss
  | rootless _ => []

/-- No code in the name of the host is too long to be found. -/
def Legible (u : Url) : Prop :=
  (SchemeKind.of u.scheme).isSpecial = true → ∀ a ∈ u.authority, a.host.CodesFit

/-- The path of a file begins at a drive. -/
def AtDrive (u : Url) : Prop :=
  SchemeKind.of u.scheme = .file ∧ u.path.segments.head?.any isDrive = true

/-- A URL that is read as it is written. -/
structure Settled (u : Url) : Prop where
  legible : u.Legible
  /-- No segment in the path of a file is only a step. -/
  steps : SchemeKind.of u.scheme = .file → ∀ s ∈ u.path.segments, isStep s = false
  /-- There is no host in front of a drive. -/
  drive : u.AtDrive → ∀ a ∈ u.authority, a.host.isEmpty = true

/-- A settled URL is read from its text. -/
theorem parse_text (h : u.Sound) (hsettled : u.Settled) : parse u.text = .ok u := by
  cases h.form with
  | hosted hkind hauthority hpath ha hss =>
      exact parse_text_hosted h hkind hauthority hpath ha hss
        fun hspecial => hsettled.legible hspecial _ hauthority
  | rooted hkind hauthority hpath hss => exact parse_text_rooted h hkind hauthority hpath hss
  | rootless hkind hauthority hpath htext =>
      exact parse_text_rootless h hkind hauthority hpath htext
  | @file host ss hkind hauthority hpath hhost hss =>
      have hsteps : ∀ s ∈ ss, isStep s = false := by
        have := hsettled.steps hkind
        rwa [hpath] at this
      rcases hhost with rfl | ⟨hhost, hlocal⟩
      · rw [parse_text_file_empty h hkind hauthority hpath hss rfl,
          Walk.path_along_text_file hss hsteps, ← hpath]
      · have hfront : ss.head?.any isDrive = false := by
          refine Bool.eq_false_iff.mpr fun hdrive => ?_
          have := hsettled.drive ⟨hkind, by rwa [hpath]⟩ _ hauthority
          exact hhost.text_ne_nil (Host.isEmpty_iff.mp this)
        have hfit := hsettled.legible (by rw [hkind]; rfl) _ hauthority
        rw [parse_text_file h hkind hauthority hpath hss hhost hlocal hfit,
          Walk.along_text hss hsteps fun _ => hfront, Walk.path_of_walked hss, ← hpath]
        simp only [Bool.false_eq_true, if_false, ← hauthority]

/-! ## What is read otherwise -/

section Otherwise
variable {v : Url}

theorem Formed.file_cases (h : Formed u) (hkind : SchemeKind.of u.scheme = .file) :
    ∃ host ss, u.authority = some { host } ∧ u.path = .rooted ss ∧
      (host = .name [] ∨ host.IsSpecial ∧ host ≠ localhost) ∧ Walked .file ss := by
  cases h with
  | hosted hother _ _ _ _ => exact absurd hkind hother
  | file _ hauthority hpath hhost hss => exact ⟨_, _, hauthority, hpath, hhost, hss⟩
  | rooted hother _ _ _ => cases hkind.symm.trans hother
  | rootless hother _ _ _ => cases hkind.symm.trans hother

/-- How the path of a file is read from its text: as it is, or without the step behind its
drive. -/
inductive Reread : List (List Char) → List (List Char) → Prop
  | same {ss : List (List Char)} : Reread ss ss
  | drive {drive drive' : List Char} {ss : List (List Char)} (h : isDrive drive = true)
      (h' : isDrive drive' = true) : Reread (drive :: ss) (drive' :: behindStep ss)

/-- A path of a file without a drive in front has no steps. -/
theorem Walked.cases_drive (h : Walked .file ss) :
    (ss.head?.any isDrive = false ∧ ∀ s ∈ ss, isStep s = false) ∨
      ∃ drive ts, ss = drive :: ts ∧ isDrive drive = true := by
  cases ss with
  | nil => exact absurd rfl h.ne_nil
  | cons s ss =>
      by_cases hdrive : isDrive s = true
      · exact .inr ⟨s, ss, rfl, hdrive⟩
      · refine .inl ⟨Bool.eq_false_iff.mpr hdrive, ?_⟩
        rcases h.steps with hsteps | ⟨-, hbehind, -, -⟩
        · exact hsteps
        · exact absurd hbehind hdrive

theorem reread_along_text_file (h : Walked .file ss) :
    ∃ ts, (Walk.along .file (Path.rooted ss).text).path .file = .rooted ts ∧ Reread ss ts := by
  rcases h.cases_drive with ⟨-, hsteps⟩ | ⟨drive, rest, rfl, hdrive⟩
  · exact ⟨ss, Walk.path_along_text_file h hsteps, .same⟩
  · exact ⟨_, Walk.path_along_text_of_drive h hdrive, .drive hdrive hdrive⟩

/-- Behind a host the walk begins at a drive if and only if the path does. -/
theorem reread_along_text (h : Walked .file ss) :
    (Walk.along .file (Path.rooted ss).text.tail).fromDrive = ss.head?.any isDrive ∧
      ∃ ts, (Walk.along .file (Path.rooted ss).text.tail).path .file = .rooted ts ∧
        Reread ss ts := by
  rcases h.cases_drive with ⟨hfront, hsteps⟩ | ⟨drive, rest, rfl, hdrive⟩
  · rw [Walk.along_text h hsteps fun _ => hfront]
    exact ⟨hfront.symm, ss, Walk.path_of_walked h, .same⟩
  · rw [Walk.along_text_of_drive h hdrive]
    refine ⟨hdrive.symm, _, ?_, .drive hdrive (isDrive_written hdrive)⟩
    obtain ⟨c, d, rfl, -, -⟩ := exists_of_isDrive hdrive
    rfl

/-- What is read from the text of the URL of a file. -/
structure RereadFile (u v : Url) : Prop where
  legible : u.Legible
  /-- Only the host and the path may be others. -/
  others : v = { u with authority := v.authority, path := v.path }
  /-- The host is left out in front of a drive, and only there. -/
  host : v.authority = u.authority ∨ u.AtDrive ∧ v.authority = some { host := .name [] }
  drive : u.AtDrive → v.authority = some { host := .name [] }
  path : Reread u.path.segments v.path.segments
  steps : ∀ s ∈ v.path.segments, isStep s = false

theorem rereadFile_of_parse_text (h : u.Sound) (hkind : SchemeKind.of u.scheme = .file)
    (hread : parse u.text = .ok v) : RereadFile u v := by
  obtain ⟨host, ss, hauthority, hpath, hhost, hss⟩ := h.form.file_cases hkind
  have hunbroken : ∀ c ∈ (Path.rooted ss).text, isBreak c = false := fun c hc =>
    not_isBreak_of_blank_lt (blank_lt_of_pathSet (clear_text_rooted hss.plain c hc))
  rcases hhost with rfl | ⟨hhost, hlocal⟩
  · obtain ⟨ts, hts, hreread⟩ := reread_along_text_file hss
    rw [parse_text_file_empty h hkind hauthority hpath hss rfl, hts] at hread
    cases hread
    refine ⟨fun _ => ?_, rfl, .inl rfl, fun _ => hauthority, hpath ▸ hreread,
      Walk.steps_path_along hunbroken hts⟩
    rw [hauthority]
    rintro a ⟨⟩
    show Name.CodesFit []
    decide
  · by_cases hfit : host.CodesFit
    · obtain ⟨hfrom, ts, hts, hreread⟩ := reread_along_text hss
      rw [parse_text_file h hkind hauthority hpath hss hhost hlocal hfit, hts, hfrom] at hread
      cases hread
      refine ⟨fun _ => ?_, rfl, ?_, fun hdrive => ?_, hpath ▸ hreread,
        Walk.steps_path_along (fun c hc => hunbroken c (List.mem_of_mem_tail hc)) hts⟩
      · rw [hauthority]
        rintro a ⟨⟩
        exact hfit
      · dsimp only
        split
        · next hdrive => exact .inr ⟨⟨hkind, by rwa [hpath]⟩, rfl⟩
        · exact .inl hauthority.symm
      · have := hdrive.2
        rw [hpath] at this
        exact congrArg (fun h => some { host := h : Authority }) (if_pos this)
    · rw [parse_text_file_of_not_codesFit h hkind hauthority hpath hss hhost hfit] at hread
      cases hread

theorem legible_of_parse_text (h : u.Sound) (hread : parse u.text = .ok v) : u.Legible := by
  cases hkind : SchemeKind.of u.scheme with
  | other =>
      intro hspecial
      rw [hkind] at hspecial
      cases hspecial
  | file => exact (rereadFile_of_parse_text h hkind hread).legible
  | special =>
      cases h.form with
      | file hother _ _ _ _ => cases hkind.symm.trans hother
      | rooted hother _ _ _ => cases hkind.symm.trans hother
      | rootless hother _ _ _ => cases hkind.symm.trans hother
      | hosted hfile hauthority hpath ha hss =>
          intro _
          rw [hauthority]
          rintro a ⟨⟩
          by_contra hfit
          rw [parse_text_hosted_eq h hfile hauthority hpath ha,
            ha.parseAuthority_text_of_not_codesFit (endsAuthority_of_mem_head? hss) hkind hfit]
            at hread
          cases hread

/-- Where no file is named, a URL is settled as soon as its host can be read. -/
theorem settled_of_legible (hkind : SchemeKind.of u.scheme ≠ .file) (h : u.Legible) : u.Settled :=
  ⟨h, fun hfile => absurd hfile hkind, fun hdrive => absurd hdrive.1 hkind⟩

/-- The text of a URL can be read if the name of its host can. -/
theorem exists_parse_text_iff (h : u.Sound) : (∃ v, parse u.text = .ok v) ↔ u.Legible := by
  refine ⟨fun ⟨v, hread⟩ => legible_of_parse_text h hread, fun hlegible => ?_⟩
  by_cases hkind : SchemeKind.of u.scheme = .file
  · obtain ⟨host, ss, hauthority, hpath, hhost, hss⟩ := h.form.file_cases hkind
    rcases hhost with rfl | ⟨hhost, hlocal⟩
    · exact ⟨_, parse_text_file_empty h hkind hauthority hpath hss rfl⟩
    · have hfit := hlegible (by rw [hkind]; rfl) _ hauthority
      exact ⟨_, parse_text_file h hkind hauthority hpath hss hhost hlocal hfit⟩
  · exact ⟨u, parse_text h (settled_of_legible hkind hlegible)⟩

/-- The host ends at the root of the path. -/
theorem takeWhile_host {host : Host} (hhost : host.Plain) (hss : Walked .file ss) :
    (host.text ++ ((Path.rooted ss).text ++ t)).takeWhile (· ≠ '/') = host.text := by
  refine Text.takeWhile_ne_append (fun hmem => ?_) fun c hc => ?_
  · exact absurd (hhost.isHostChar '/' hmem) (by decide)
  · rw [text_rooted_cons hss] at hc
    cases hc
    rfl

/-- The text of the URL of a file tells its host and its path. -/
theorem text_inj_of_file (hu : u.Sound) (hv : v.Sound) (hkind : SchemeKind.of u.scheme = .file)
    (hscheme : v.scheme = u.scheme) (htext : v.text = u.text) :
    v.path = u.path ∧ v.authority.map (·.host.text) = u.authority.map (·.host.text) := by
  obtain ⟨host, ss, hauthority, hpath, hhost, hss⟩ := hu.form.file_cases hkind
  obtain ⟨host', ss', hauthority', hpath', hhost', hss'⟩ := hv.form.file_cases (hscheme ▸ hkind)
  have hbody : host'.text ++ ((Path.rooted ss').text ++ v.behindPath) =
      host.text ++ ((Path.rooted ss).text ++ u.behindPath) := by
    rw [text_eq, text_eq, hscheme] at htext
    have := List.append_cancel_left htext
    simpa [body, front, hauthority, hauthority', hpath, hpath', text_of_host] using this
  -- the host ends at the root, and the path where the query or the fragment begins
  have hsame : host'.text = host.text := by
    have := congrArg (List.takeWhile (· ≠ '/')) hbody
    rwa [takeWhile_host (plain_of_file hhost') hss', takeWhile_host (plain_of_file hhost) hss]
      at this
  have hpathText : (Path.rooted ss').text = (Path.rooted ss).text := by
    rw [hsame] at hbody
    have := congrArg pathPart (List.append_cancel_left hbody)
    rwa [pathPart_append_behindPath (hu.not_endsPath_rooted hpath),
      pathPart_append_behindPath (hv.not_endsPath_rooted hpath')] at this
  have hsegments : ss' = ss := by
    rw [← Walk.split_text hss', hpathText, Walk.split_text hss]
  rw [hpath, hpath', hsegments, hauthority, hauthority', Option.map_some, Option.map_some, hsame]
  exact ⟨rfl, rfl⟩

/-- If what is read has the same text again, be it with another path in place of its own, then
the URL is settled. -/
theorem settled_of_text_eq (h : u.Sound) (hread : parse u.text = .ok v) {path : Path}
    (hv : ({ v with path } : Url).Sound)
    (hsteps : SchemeKind.of v.scheme = .file → (∀ s ∈ v.path.segments, isStep s = false) →
      ∀ s ∈ path.segments, isStep s = false)
    (htext : ({ v with path } : Url).text = u.text) : u.Settled := by
  refine ⟨legible_of_parse_text h hread, fun hkind => ?_, fun hdrive a ha => ?_⟩
  · -- the same text has the same path, and what is read has no steps in it
    have hfile := rereadFile_of_parse_text h hkind hread
    have hscheme : v.scheme = u.scheme := by rw [hfile.others]
    rw [← (text_inj_of_file h hv hkind hscheme htext).1]
    exact hsteps (hscheme ▸ hkind) hfile.steps
  · -- the same text has the same host, and what is read has none in front of a drive
    have hfile := rereadFile_of_parse_text h hdrive.1 hread
    have hscheme : v.scheme = u.scheme := by rw [hfile.others]
    have hhost := (text_inj_of_file h hv hdrive.1 hscheme htext).2
    rw [ha, hfile.drive hdrive, Option.map_some, Option.map_some] at hhost
    exact Host.isEmpty_iff.mpr (Option.some.inj hhost).symm

/-- A URL is read from its text if and only if it is settled. -/
theorem parse_text_iff (h : u.Sound) : parse u.text = .ok u ↔ u.Settled :=
  ⟨fun hread => settled_of_text_eq h hread h (fun _ hsteps => hsteps) rfl,
    parse_text h⟩

end Otherwise

end Url

end Nullness
