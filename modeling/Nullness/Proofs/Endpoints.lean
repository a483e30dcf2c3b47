import Nullness.Endpoint
import Nullness.Proofs.Ideographs
import Nullness.Proofs.Rereading

/-!
# Endpoints that are pointed to spans stay so

The endpoint for spans keeps everything of a URL but the end of its path, which then is neither
the root alone nor the path for logs. So nothing is left to be replaced. Whether its text stands
for itself depends on whether a URL is read as it is written.

- `Endpoint.tracePath?_forTraces`: no path is replaced twice.
- `Endpoint.normalize_normalize`: when the text of an endpoint stands for itself.
- `Endpoint.normalize_changes_again`, `Endpoint.normalize_longLabel`: when it does not.
-/

namespace Nullness

namespace Endpoint

open Url

variable {u : Url} {path text front : List Char}

/-! ## The path for spans -/

/-- The paths that are replaced: the root, and those that end in the path for logs. -/
theorem exists_of_tracePath? (h : tracePath? path = some text) :
    ∃ front, text = front ++ traces ∧ (path = ['/'] ∧ front = [] ∨ path = front ++ logs) := by
  rw [tracePath?] at h
  split at h
  · next hroot =>
    cases h
    exact ⟨[], rfl, .inl ⟨hroot, rfl⟩⟩
  · obtain ⟨front, hfront, rfl⟩ := Option.map_eq_some_iff.mp h
    refine ⟨front, rfl, .inr ?_⟩
    rw [beforeSuffix?] at hfront
    split at hfront
    · next hsuffix =>
      cases hfront
      obtain ⟨front, rfl⟩ := List.isSuffixOf_iff_suffix.mp hsuffix
      simp
    · cases hfront

theorem tracePath?_eq_none_iff :
    tracePath? path = none ↔ path ≠ ['/'] ∧ ¬ logs <:+ path := by
  rw [tracePath?]
  by_cases hroot : path = ['/']
  · simp [hroot]
  · simp [hroot, beforeSuffix?]

/-- A path for spans is kept. -/
theorem tracePath?_append_traces (front : List Char) : tracePath? (front ++ traces) = none := by
  refine tracePath?_eq_none_iff.mpr ⟨fun hroot => ?_, fun hsuffix => ?_⟩
  · have hlength := congrArg List.length hroot
    have htraces : traces.length = 10 := by decide +kernel
    rw [List.length_append, List.length_singleton, htraces] at hlength
    omega
  · have hlength : logs.length ≤ traces.length := by decide +kernel
    have hnot : ¬ logs <:+ traces := by decide +kernel
    exact hnot (List.suffix_of_suffix_length_le hsuffix (List.suffix_append front traces) hlength)

/-- The segments of the path for spans. -/
def traceSegments : List (List Char) := ["v1".toList, "traces".toList]

theorem plainSegment_traceSegments (kind : SchemeKind) :
    ∀ s ∈ traceSegments, PlainSegment kind s := by
  have hall : ∀ kind : SchemeKind, (traceSegments.all fun s =>
      s.all fun c => !pathSet c && !kind.endsSegment c) = true := by
    intro kind
    cases kind <;> decide +kernel
  intro s hs c hc
  have := List.all_eq_true.mp (List.all_eq_true.mp (hall kind) s hs) c hc
  simpa using this

/-- A path is split at the root of its end. -/
theorem exists_split_append (kind : SchemeKind) (hfront : front = [] ∨ front.head? = some '/')
    (ending : List Char) :
    ∃ ss, Text.split kind.endsSegment (front ++ '/' :: ending).tail =
      ss ++ Text.split kind.endsSegment ending := by
  rcases hfront with rfl | hfront
  · exact ⟨[], rfl⟩
  · obtain ⟨rest, rfl⟩ := List.head?_eq_some_iff.mp hfront
    have hslash : kind.endsSegment '/' = true := by simp [SchemeKind.endsSegment]
    exact ⟨_, Text.split_append_of_mark hslash rest ending⟩

theorem split_traces (kind : SchemeKind) :
    Text.split kind.endsSegment traces.tail = traceSegments := by
  cases kind <;> rfl

/-- The new path ends as it was meant to. -/
theorem exists_text_withPath (hpath : tracePath? u.path.text = some text) :
    ∃ front, (u.withPath text).path.text = front ++ traces := by
  obtain ⟨front, rfl, hfront⟩ := exists_of_tracePath? hpath
  cases hroot : u.path with
  | rootless old =>
      have hencode : encode controls traces = traces := by decide +kernel
      rw [withPath_rootless hroot, Path.text, encode_append, hencode]
      exact ⟨_, rfl⟩
  | rooted ss =>
      have hslash : front = [] ∨ front.head? = some '/' := by
        rcases hfront with ⟨-, rfl⟩ | hlogs
        · exact .inl rfl
        · cases front with
          | nil => exact .inl rfl
          | cons c rest =>
              rw [hroot] at hlogs
              cases ss with
              | nil => cases hlogs
              | cons s ss => exact .inr (congrArg List.head? hlogs).symm
      obtain ⟨rest, hsplit⟩ : ∃ rest, Text.split (SchemeKind.of u.scheme).endsSegment
          (front ++ traces).tail = rest ++ traceSegments := by
        rw [← split_traces (.of u.scheme)]
        exact exists_split_append _ hslash traces.tail
      -- the walk enters the last segments as they are, whatever it has done before
      have hsteps : ∀ s ∈ traceSegments, isStep s = false := by
        simp only [traceSegments, List.forall_mem_cons]
        decide +kernel
      obtain ⟨found, hfound⟩ := Walk.exists_path_append hsplit (by simp [traceSegments])
        (plainSegment_traceSegments _) hsteps (by decide +kernel) (by decide +kernel)
      rw [withPath_rooted hroot, Path.ofText, hfound]
      refine ⟨(Path.rooted found).text, ?_⟩
      simp only [Path.text, List.flatMap_append]
      rfl

/-! ## The endpoint for spans -/

/-- Only the path of a URL is replaced. -/
theorem forTraces_eq (u : Url) : forTraces u = { u with path := (forTraces u).path } := by
  rw [forTraces]
  split
  · exact withPath_eq u _
  · rfl

/-- No path is replaced twice. -/
theorem tracePath?_forTraces (u : Url) : tracePath? (forTraces u).path.text = none := by
  rw [forTraces]
  split
  · next text hpath =>
    obtain ⟨front, hfront⟩ := exists_text_withPath hpath
    rw [hfront, tracePath?_append_traces]
  · next hpath => exact hpath

theorem forTraces_of_tracePath? (h : tracePath? u.path.text = none) : forTraces u = u := by
  rw [forTraces, h]

theorem mem_of_tracePath? {c : Char} (h : tracePath? path = some text) (hc : c ∈ text) :
    c ∈ path ∨ c ∈ traces := by
  obtain ⟨front, rfl, hfront⟩ := exists_of_tracePath? h
  rcases List.mem_append.mp hc with hc | hc
  · rcases hfront with ⟨-, rfl⟩ | rfl
    · cases hc
    · exact .inl (List.mem_append_left _ hc)
  · exact .inr hc

/-- A character of the path for spans. -/
theorem clear_traces : ∀ c ∈ traces, endsPath c = false ∧ ' ' < c := by
  have hall : (traces.all fun c => !endsPath c && decide (' ' < c)) = true := by decide +kernel
  intro c hc
  simpa using List.all_eq_true.mp hall c hc

/-- The endpoint of a URL that is read is like a URL that is read. -/
theorem sound_forTraces (h : u.Sound) : (forTraces u).Sound := by
  rw [forTraces]
  split
  · next text hpath =>
    cases hroot : u.path with
    | rooted ss => exact h.withPath_rooted hroot text
    | rootless old =>
        have hends : ∀ c ∈ text, endsPath c = false := by
          intro c hc
          rcases mem_of_tracePath? hpath hc with hc | hc
          · exact h.not_endsPath_text c hc
          · exact (clear_traces c hc).1
        have hslash : old.head? ≠ some '/' := by
          rcases h.form.path_cases with ⟨ss, hrooted, -⟩ | ⟨found, hfound, hrootless, -⟩
          · cases hroot.symm.trans hrooted
          · cases hroot.symm.trans hfound
            exact hrootless.front
        rw [hroot] at hpath
        obtain ⟨front, rfl, hold⟩ := exists_of_tracePath? hpath
        refine h.withPath_rootless hroot hends (fun hhead => hslash ?_) fun c hc => ?_
        · rcases hold with ⟨hold, rfl⟩ | hold
          · exact congrArg List.head? hold
          · cases front with
            | nil => exact congrArg List.head? hold
            | cons c front => exact (congrArg List.head? hold).trans hhead
        · have hne : traces ≠ [] := by decide +kernel
          rw [List.getLast?_append, List.getLast?_eq_some_getLast hne, Option.some_or] at hc
          cases hc
          exact (clear_traces _ (List.getLast_mem hne)).2
  · exact h

/-- No step gets into the path of a file. -/
theorem steps_forTraces (h : u.Sound) (hkind : SchemeKind.of u.scheme = .file)
    (hsteps : ∀ s ∈ u.path.segments, isStep s = false) :
    ∀ s ∈ (forTraces u).path.segments, isStep s = false := by
  rw [forTraces]
  split
  · next text hpath =>
    obtain ⟨host, ss, -, hroot, -, hss⟩ := h.form.file_cases hkind
    have hunbroken : ∀ c ∈ text.tail, isBreak c = false := by
      intro c hc
      rcases mem_of_tracePath? hpath (List.mem_of_mem_tail hc) with hc | hc
      · rw [hroot] at hc
        exact not_isBreak_of_blank_lt (blank_lt_of_pathSet (clear_text_rooted hss.plain c hc))
      · exact not_isBreak_of_blank_lt (clear_traces c hc).2
    obtain ⟨ts, hts, -⟩ := Walk.walked_along (.of u.scheme) text.tail
    rw [withPath_rooted hroot, Path.ofText, hts]
    exact Walk.steps_path_along hunbroken hts
  · exact hsteps

/-! ## Paths that are kept -/

/-- The path is neither the root alone, nor does it end in the path for logs. -/
def IsKept (path : Path) : Prop := path.text ≠ ['/'] ∧ ¬ logs <:+ path.text

/-- The segments of the path for logs. -/
def logSegments : List (List Char) := ["v1".toList, "logs".toList]

theorem logs_suffix_text_iff {kind : SchemeKind} {ss : List (List Char)} (h : Walked kind ss) :
    logs <:+ (Path.rooted ss).text ↔ logSegments <:+ ss := by
  constructor
  · rintro ⟨front, hfront⟩
    have hslash : front = [] ∨ front.head? = some '/' := by
      cases front with
      | nil => exact .inl rfl
      | cons c front =>
          rw [text_rooted_cons h] at hfront
          exact .inr (congrArg List.head? hfront)
    have hmark : Text.split kind.endsSegment logs.tail = logSegments := by
      cases kind <;> rfl
    obtain ⟨rest, hsplit⟩ := exists_split_append kind hslash logs.tail
    have htail : (front ++ '/' :: logs.tail).tail = (Path.rooted ss).text.tail :=
      congrArg List.tail hfront
    rw [htail, Walk.split_text h, hmark] at hsplit
    exact ⟨rest, hsplit.symm⟩
  · rintro ⟨front, rfl⟩
    refine ⟨(Path.rooted front).text, ?_⟩
    simp only [Path.text, List.flatMap_append]
    rfl

theorem text_eq_root_iff {ss : List (List Char)} : (Path.rooted ss).text = ['/'] ↔ ss = [[]] := by
  constructor
  · intro h
    cases ss with
    | nil => cases h
    | cons s ss =>
        have hrest : s ++ (Path.rooted ss).text = [] := List.cons.inj h |>.2
        obtain ⟨rfl, hss⟩ := List.append_eq_nil_iff.mp hrest
        cases ss with
        | nil => rfl
        | cons t ts => cases hss
  · rintro rfl
    rfl

/-- The end of a path for logs is no drive, and a step in front of it makes no difference. -/
theorem logSegments_suffix_of_reread {ss ts : List (List Char)} (h : Reread ss ts)
    (hts : logSegments <:+ ts) : logSegments <:+ ss := by
  cases h with
  | same => exact hts
  | @drive drive drive' ss hdrive hdrive' =>
      rcases List.suffix_cons_iff.mp hts with heq | hbehind
      · obtain ⟨rfl, -⟩ := List.cons.inj heq
        exact absurd hdrive' (by decide +kernel)
      · refine List.suffix_cons_iff.mpr (.inr ?_)
        cases ss with
        | nil => exact hbehind
        | cons s ss =>
            rw [behindStep] at hbehind
            split at hbehind
            · split at hbehind
              · -- one empty segment is left
                have := hbehind.length_le
                exact absurd this (by decide)
              · exact List.suffix_cons_iff.mpr (.inr hbehind)
            · exact hbehind

/-- What is read from the text of a file's URL has a path that is kept if the URL has. -/
theorem isKept_of_reread {ss ts : List (List Char)} (hss : Walked .file ss) (hts : Walked .file ts)
    (h : Reread ss ts) (hkept : IsKept (.rooted ss)) : IsKept (.rooted ts) := by
  refine ⟨fun hroot => ?_, fun hlogs => hkept.2 ?_⟩
  · have hempty := text_eq_root_iff.mp hroot
    cases h with
    | same => exact hkept.1 hroot
    | drive _ hdrive' =>
        obtain ⟨rfl, -⟩ := List.cons.inj hempty
        cases hdrive'
  · rw [logs_suffix_text_iff hss]
    exact logSegments_suffix_of_reread h ((logs_suffix_text_iff hts).mp hlogs)

/-! ## Its text -/

theorem normalize_eq_ok_iff {s v : String} :
    normalize s = .ok v ↔ ∃ u, Url.parse s.toList = .ok u ∧ (forTraces u).text = v.toList := by
  rw [normalize]
  constructor
  · intro h
    split at h
    · cases h
    · next u hu =>
      cases h
      exact ⟨u, hu, String.toList_ofList.symm⟩
  · rintro ⟨u, hu, htext⟩
    rw [hu]
    show Except.ok (String.ofList (forTraces u).text) = _
    rw [htext, String.ofList_toList]

/-- The text of an endpoint stands for itself if and only if the URL is settled. -/
theorem normalize_text_iff {v : String} (h : u.Sound) (hkept : IsKept u.path)
    (htext : u.text = v.toList) : normalize v = .ok v ↔ u.Settled := by
  rw [normalize_eq_ok_iff, ← htext]
  constructor
  · rintro ⟨found, hfound, hsame⟩
    have hfoundSound := sound_of_parse hfound
    have hforTraces := sound_forTraces hfoundSound
    rw [forTraces_eq found] at hsame hforTraces
    exact settled_of_text_eq h hfound hforTraces (steps_forTraces hfoundSound) hsame
  · intro hsettled
    have hnone := tracePath?_eq_none_iff.mpr hkept
    exact ⟨u, parse_text h hsettled, by rw [forTraces_of_tracePath? hnone]⟩

/-- What is read from the text of a URL with a path that is kept: another path that is kept at
most, and no host if that begins at a drive. -/
theorem reread_of_parse_text {x : Url} (h : u.Sound) (hkept : IsKept u.path)
    (hread : Url.parse u.text = .ok x) :
    IsKept x.path ∧ x = { u with authority := x.authority, path := x.path } ∧
      (x.authority = u.authority ∨ u.AtDrive ∧ x.authority = some { host := .name [] }) := by
  by_cases hkind : SchemeKind.of u.scheme = .file
  · have hfile := rereadFile_of_parse_text h hkind hread
    refine ⟨?_, hfile.others, hfile.host⟩
    have hscheme : x.scheme = u.scheme := by rw [hfile.others]
    obtain ⟨-, ss, -, hpath, -, hss⟩ := h.form.file_cases hkind
    obtain ⟨-, ts, -, hpath', -, hts⟩ := (sound_of_parse hread).form.file_cases (hscheme ▸ hkind)
    have hreread := hfile.path
    rw [hpath, hpath'] at hreread
    rw [hpath] at hkept
    rw [hpath']
    exact isKept_of_reread hss hts hreread hkept
  · have hsettled := settled_of_legible hkind (legible_of_parse_text h hread)
    rw [parse_text h hsettled] at hread
    cases hread
    exact ⟨hkept, rfl, .inl rfl⟩

/-- The text of an endpoint is that of a URL which differs in its path at most from the one that
was read, and whose path is kept from then on. It stands for itself unless the URL is not settled.
It can be read again unless a code in the name of its host is too long; then nothing changes but
the path of a file, or its host in front of a drive. -/
theorem normalize_normalize {s v : String} (h : normalize s = .ok v) :
    ∃ u w : Url, Url.parse s.toList = .ok u ∧ w.text = v.toList ∧
      IsKept w.path ∧ w = { u with path := w.path } ∧
      (normalize v = .ok v ↔ w.Settled) ∧
      ((∃ x, Url.parse v.toList = .ok x) ↔ w.Legible) ∧
      ∀ x, Url.parse v.toList = .ok x →
        IsKept x.path ∧ x = { u with authority := x.authority, path := x.path } ∧
          (x.authority = u.authority ∨ w.AtDrive ∧ x.authority = some { host := .name [] }) := by
  obtain ⟨u, hu, htext⟩ := normalize_eq_ok_iff.mp h
  have hsound := sound_forTraces (sound_of_parse hu)
  have hkept : IsKept (forTraces u).path := tracePath?_eq_none_iff.mp (tracePath?_forTraces u)
  refine ⟨u, forTraces u, hu, htext, hkept, forTraces_eq u,
    normalize_text_iff hsound hkept htext, ?_, fun x hx => ?_⟩
  · rw [← htext]
    exact exists_parse_text_iff hsound
  · rw [← htext] at hx
    have hreread := reread_of_parse_text hsound hkept hx
    rw [forTraces_eq u] at hreread ⊢
    exact hreread

/-- An endpoint for logs on this machine is pointed to spans once and for all. -/
theorem normalize_localhost :
    normalize "http://localhost:4318/v1/logs" = .ok "http://localhost:4318/v1/traces" ∧
      ∃ u w : Url, Url.parse "http://localhost:4318/v1/logs".toList = .ok u ∧
        w.text = "http://localhost:4318/v1/traces".toList ∧ IsKept w.path ∧
        w = { u with path := w.path } ∧ w.Settled := by
  have h : normalize "http://localhost:4318/v1/logs" = .ok "http://localhost:4318/v1/traces" := rfl
  obtain ⟨u, w, hread, htext, hkept, hsame, hiff, -⟩ := normalize_normalize h
  exact ⟨h, u, w, hread, htext, hkept, hsame, hiff.mp rfl⟩

/-- A step that is kept behind a drive is taken when the text is read again, and a drive that comes
to the front of a path takes the place of the host. -/
theorem normalize_changes_again :
    (normalize "file:/C:\n.." = .ok "file:///C:/.." ∧
      normalize "file:///C:/.." = .ok "file:///C:/") ∧
    (normalize "file://host//C:/v1/logs" = .ok "file://host/C:/v1/traces" ∧
      normalize "file://host/C:/v1/traces" = .ok "file:///C:/v1/traces") :=
  ⟨⟨rfl, rfl⟩, rfl, rfl⟩

/-- The endpoint for logs on a host. -/
def logsAt (host : List Char) : String := "http://" ++ String.ofList host ++ "/v1/logs"

theorem toList_logsAt (host : List Char) :
    (logsAt host).toList = ['h', 't', 't', 'p'] ++ ':' :: '/' :: '/' :: (host ++ logs) := by
  have hparts : ∀ front host back : String,
      (front ++ host ++ back).toList = front.toList ++ host.toList ++ back.toList := by
    intro front host back
    rw [String.toList_append, String.toList_append]
  have hfront : "http://".toList = ['h', 't', 't', 'p', ':', '/', '/'] := by decide +kernel
  calc (logsAt host).toList
      = "http://".toList ++ (String.ofList host).toList ++ logs := hparts _ _ _
    _ = ['h', 't', 't', 'p', ':', '/', '/'] ++ host ++ logs := by
        rw [hfront, String.toList_ofList (l := host)]
    _ = ['h', 't', 't', 'p'] ++ ':' :: '/' :: '/' :: (host ++ logs) := by
        simp only [List.cons_append, List.nil_append]

theorem parse_longLabel : ∃ u a, Url.parse (logsAt Name.longLabel).toList = .ok u ∧
    SchemeKind.of u.scheme = .special ∧ u.authority = some a ∧ ¬ a.host.CodesFit := by
  have hscheme : IsScheme ['h', 't', 't', 'p'] :=
    (isScheme_of_splitScheme? (s := ['h', 't', 't', 'p', ':']) rfl).1
  have hkind : SchemeKind.of ['h', 't', 't', 'p'] = .special := by decide +kernel
  have hlength : Name.longLabel.length ≤ Name.longestLabel := Name.length_longLabel.le
  have hne : Name.longLabel ≠ [] :=
    List.ne_nil_of_length_pos (by rw [Name.length_longLabel]; decide)
  have hread := Host.ofSpecial_of_ideographs Name.ofIdeographs_longLabel Name.ascending_longLabel
    hne hlength
  have hlogs : ∀ c ∈ logs, ' ' < c := by
    have hall : (logs.all fun c => decide (' ' < c)) = true := by decide +kernel
    exact fun c hc => by simpa using List.all_eq_true.mp hall c hc
  have hslash : ∀ c ∈ logs.head?, SchemeKind.special.endsAuthority c = true := by
    have hhead : logs.head? = some '/' := by decide +kernel
    rw [hhead]
    rintro c ⟨⟩
    rfl
  have hparse := hscheme.parse_of_ofSpecial hkind
    (fun c hc => isHostChar_of_isIdeograph (Name.ofIdeographs_longLabel c hc)) hread hslash hlogs
  refine ⟨_, _, (toList_logsAt _).symm ▸ hparse, hkind, rfl, ?_⟩
  exact Name.not_codesFit_of_ideographs Name.ofIdeographs_longLabel hne hlength
    Name.longestCode_lt_longLabel

/-- The code in the name of a host can be longer than a code that is found may be. Then the text of
the endpoint cannot be read again. -/
theorem normalize_longLabel :
    ∃ v, normalize (logsAt Name.longLabel) = .ok v ∧ ¬ ∃ w, normalize v = .ok w := by
  obtain ⟨u, a, hu, hkind, ha, hlong⟩ := parse_longLabel
  have htext : normalize (logsAt Name.longLabel) = .ok (String.ofList (forTraces u).text) :=
    normalize_eq_ok_iff.mpr ⟨u, hu, String.toList_ofList.symm⟩
  refine ⟨_, htext, fun ⟨w, hw⟩ => hlong ?_⟩
  obtain ⟨x, hx, -⟩ := normalize_eq_ok_iff.mp hw
  rw [String.toList_ofList] at hx
  have hlegible := (exists_parse_text_iff (sound_forTraces (sound_of_parse hu))).mp ⟨x, hx⟩
  rw [forTraces_eq u] at hlegible
  exact hlegible (by rw [hkind]; rfl) a ha

end Endpoint

end Nullness
