import Nullness.Document.Read
import Nullness.Proofs.Growth
import Nullness.Proofs.Printing
import Nullness.Proofs.Summaries
import Nullness.Proofs.Trees
import Nullness.Proofs.Yields
import Nullness.Report.Text

/-!
# Reading reports back

Nothing is lost when a report is written. Its text is one JSON value and the end of a line, and
from that value everything that is reported can be told: the counts of the summary, and in
their order the entries, field by field.

- `Json.ofText?`: the value that a text holds.
- `ReportRow.ofJson?`, `Summary.ofJson?`, `Report.ToldBy`: what a value reports. They know nothing
  of the order in which fields are written.
- `Graph.report_readback`: the report of a graph, read back.
-/

namespace Nullness

open Document (string? bool?)

/-! ## Texts of values -/

/-- The value that a text holds: there is nothing behind it but blanks. -/
def Json.ofText? (text : String) : Option Json :=
  match Json.Reader.tree Document.depthLimit text.toList with
  | .error _ => none
  | .ok t => if t.rest.all Json.Reader.isBlank then some t.value else none

theorem Json.ofText?_of_spelling {text : String} {j : Json} {doc : List Char} (h : Spelling j doc)
    (hdepth : j.depth ≤ Document.depthLimit) (htext : text.toList = doc ++ ['\n']) :
    ofText? text = some j := by
  have hbreaks : Reader.Breaks ['\n'] := Reader.breaks_cons (by decide) []
  have htakes := Reader.reads_tree hdepth blank_nil h hbreaks
  rw [List.nil_append, ← htext] at htakes
  obtain ⟨le, hread⟩ := htakes
  rw [ofText?, hread]
  rfl

/-! ## Objects -/

namespace Json

/-- What an object has under a key, at its first place. -/
def get? (j : Json) (k : String) : Option Json :=
  match j with
  | .obj es => es.lookup k
  | _ => none

/-- An object that has no key twice and no key but these. -/
def isRecord (keys : List String) : Json → Bool
  | .obj es => decide (es.map (·.1)).Nodup && es.all fun e => keys.contains e.1
  | _ => false

/-- A natural number. -/
def nat? : Json → Option Nat
  | .num (.int (.ofNat n)) => some n
  | _ => none

/-- The elements of a list. -/
def list? : Json → Option (List Json)
  | .arr es => some es
  | _ => none

/-- What may be left out: nothing there is no value, and what is there has to be one. -/
def optional? {α : Type} (read : Json → Option α) : Option Json → Option (Option α)
  | none => some none
  | some j => (read j).map some

section Record
variable {fields : List (String × Option Json)}

theorem keys_record_sublist (fields : List (String × Option Json)) :
    ((fields.filterMap fun (k, v) => v.map (k, ·)).map (·.1)).Sublist (fields.map (·.1)) := by
  induction fields with
  | nil => exact List.Sublist.slnil
  | cons f fields ih =>
      obtain ⟨k, v⟩ := f
      cases v with
      | none => exact ih.cons k
      | some v => exact ih.cons_cons k

theorem isRecord_record (h : (fields.map (·.1)).Nodup) :
    (record fields).isRecord (fields.map (·.1)) = true := by
  have hsub := keys_record_sublist fields
  rw [record, isRecord, Bool.and_eq_true, List.all_eq_true, decide_eq_true_eq]
  constructor
  · exact h.sublist hsub
  · intro e he
    exact List.contains_iff_mem.mpr (hsub.subset (List.mem_map_of_mem he))

/-- A field is there exactly if it was given. -/
theorem get?_record (h : (fields.map (·.1)).Nodup) (k : String) :
    (record fields).get? k = (fields.lookup k).join := by
  rw [record, get?]
  induction fields with
  | nil => rfl
  | cons f fields ih =>
      obtain ⟨k', v⟩ := f
      obtain ⟨hnew, hrest⟩ := List.nodup_cons.mp h
      by_cases hk : k = k'
      · subst hk
        cases v with
        | some v => simp
        | none =>
            -- the key is not given again
            have hnone : (fields.filterMap fun (k, v) => v.map (k, ·)).lookup k = none := by
              rw [List.lookup_eq_none_iff]
              intro e he
              have hmem := (keys_record_sublist fields).subset (List.mem_map_of_mem he)
              rw [bne_iff_ne]
              rintro rfl
              exact hnew hmem
            simpa using hnone
      · have hne : (k == k') = false := beq_eq_false_iff_ne.mpr hk
        cases v with
        | some v => simpa [List.lookup_cons, hne] using ih hrest
        | none => simpa [List.lookup_cons, hne] using ih hrest

theorem printable_record (h : ∀ f ∈ fields, ∀ v, f.2 = some v → v.Printable) :
    (record fields).Printable := by
  refine .obj fun e he => ?_
  obtain ⟨⟨k, v⟩, hf, hv⟩ := List.mem_filterMap.mp he
  obtain ⟨w, rfl, rfl⟩ := Option.map_eq_some_iff.mp hv
  exact h _ hf w rfl

theorem depth_record_le {n : Nat} (h : ∀ f ∈ fields, ∀ v, f.2 = some v → v.depth ≤ n) :
    (record fields).depth ≤ n + 1 := by
  rw [record, depth]
  refine Nat.succ_le_succ (depthOfEntries_le_iff.mpr fun e he => ?_)
  obtain ⟨⟨k, v⟩, hf, hv⟩ := List.mem_filterMap.mp he
  obtain ⟨w, rfl, rfl⟩ := Option.map_eq_some_iff.mp hv
  exact h _ hf w rfl

end Record

end Json

/-! ## Words -/

/-- The target that a word stands for. -/
def Target.ofWord? (w : String) : Option Target :=
  [Target.field, .parameter, .result, .unspecified].find? (·.word == w)

/-- The level that a word stands for. -/
def Level.ofWord? (w : String) : Option Level :=
  Level.all.find? (·.word == w)

/-- The words for what a verdict says about null. -/
def Verdict.sayings : List (String × Option Nullability) :=
  [ ("NON_NULL", some .nonNull), ("WEAK_NULLABLE", some .weakNullable),
    ("STRONG_NULLABLE", some .strongNullable), ("UNKNOWN", none) ]

theorem Target.ofWord?_word (t : Target) : ofWord? t.word = some t := by
  cases t <;> decide

theorem Level.ofWord?_word (l : Level) : ofWord? l.word = some l := by
  cases l <;> decide

theorem Verdict.lookup_sayings (v : Verdict) : sayings.lookup v.word = some v.nullability? := by
  rw [word]
  rcases v.nullability? with _ | n
  · decide
  · cases n <;> decide

/-! ## Records of a report -/

/-- What is reported of one symbol: the deciding annotation is told by the name of its type. -/
structure ReportRow where
  symbol : String
  kind : Kind
  target : Option Target
  nullability? : Option Nullability
  level : Level
  source : Option String
  viaMeta : Bool
  site : Option Site

def ReportEntry.row (e : ReportEntry) : ReportRow where
  symbol := e.symbol
  kind := e.kind
  target := e.target
  nullability? := e.verdict.nullability?
  level := e.verdict.level
  source := e.source
  viaMeta := e.verdict.viaMeta
  site := e.site

/-- The site that a value stands for. -/
def Site.ofJson? (j : Json) : Option Site :=
  if j.isRecord ["path", "line"] then do
    let path ← (j.get? "path").bind string?
    let line ← (j.get? "line").bind Json.nat?
    return { path, line }
  else none

/-- The keys that an entry may have. -/
def ReportRow.keys : List String :=
  ["symbol", "kind", "target", "type", "level", "annotation", "meta_annotation", "declaration"]

/-- The row that a value stands for. -/
def ReportRow.ofJson? (j : Json) : Option ReportRow :=
  if j.isRecord keys then do
    let symbol ← (j.get? "symbol").bind string?
    let kind ← ((j.get? "kind").bind string?).bind Kind.ofWord?
    let target ← Json.optional? (fun t => (string? t).bind Target.ofWord?) (j.get? "target")
    let nullability? ← ((j.get? "type").bind string?).bind fun w =>
      Verdict.sayings.lookup w
    let level ← ((j.get? "level").bind string?).bind Level.ofWord?
    let source ← Json.optional? string? (j.get? "annotation")
    let viaMeta ← (j.get? "meta_annotation").bind bool?
    let site ← Json.optional? Site.ofJson? (j.get? "declaration")
    return { symbol, kind, target, nullability?, level, source, viaMeta, site }
  else none

/-- The summary that a value stands for. -/
def Summary.ofJson? (j : Json) : Option Summary :=
  if j.isRecord ["symbols", "non_null", "weak_nullable", "strong_nullable", "unknown"] then do
    let symbols ← (j.get? "symbols").bind Json.nat?
    let nonNull ← (j.get? "non_null").bind Json.nat?
    let weakNullable ← (j.get? "weak_nullable").bind Json.nat?
    let strongNullable ← (j.get? "strong_nullable").bind Json.nat?
    let unknown ← (j.get? "unknown").bind Json.nat?
    return { symbols, nonNull, weakNullable, strongNullable, unknown }
  else none

/-! ## Reading back -/

theorem Site.ofJson?_json (s : Site) : ofJson? s.json = some s := by
  rfl

theorem Summary.ofJson?_json (s : Summary) : ofJson? s.json = some s := by
  rfl

theorem Json.optional?_map {α : Type} {read : Json → Option α} {write : α → Json}
    (h : ∀ a, read (write a) = some a) (o : Option α) : optional? read (o.map write) = some o := by
  cases o with
  | none => rfl
  | some a =>
      rw [Option.map_some, optional?, h]
      rfl

namespace ReportEntry

variable (e : ReportEntry)

/-- A value tells what an entry reports. What the entry does not have is left out. -/
structure ToldBy (j : Json) : Prop where
  row : ReportRow.ofJson? j = some e.row
  target : (j.get? "target").isSome = e.target.isSome
  annotation : (j.get? "annotation").isSome = e.source.isSome
  declaration : (j.get? "declaration").isSome = e.site.isSome

theorem toldBy_json : e.ToldBy e.json := by
  have hnodup : ReportRow.keys.Nodup := by decide
  have hkeys : e.json.isRecord ReportRow.keys = true := Json.isRecord_record hnodup
  have hget : ∀ k, e.json.get? k = _ := Json.get?_record hnodup
  have htarget : e.json.get? "target" = e.target.map fun t => .str t.word :=
    (hget "target").trans rfl
  have hsource : e.json.get? "annotation" = e.source.map .str := (hget "annotation").trans rfl
  have hdeclaration : e.json.get? "declaration" = e.site.map Site.json :=
    (hget "declaration").trans rfl
  constructor
  · have hsymbol : (e.json.get? "symbol").bind string? = some e.symbol := by
      rw [hget]
      rfl
    have hkind : ((e.json.get? "kind").bind string?).bind Kind.ofWord? = some e.kind := by
      rw [hget]
      exact e.kind.ofWord?_word
    have htype : (((e.json.get? "type").bind string?).bind fun w => Verdict.sayings.lookup w) =
        some e.verdict.nullability? := by
      rw [hget]
      exact e.verdict.lookup_sayings
    have hlevel : ((e.json.get? "level").bind string?).bind Level.ofWord? =
        some e.verdict.level := by
      rw [hget]
      exact e.verdict.level.ofWord?_word
    have hmeta : (e.json.get? "meta_annotation").bind bool? = some e.verdict.viaMeta := by
      rw [hget]
      rfl
    have hstring : ∀ s, string? (.str s) = some s := fun _ => rfl
    rw [ReportRow.ofJson?, if_pos hkeys, hsymbol, hkind, htarget,
      Json.optional?_map Target.ofWord?_word, htype, hlevel, hsource,
      Json.optional?_map hstring, hmeta, hdeclaration, Json.optional?_map Site.ofJson?_json]
    rfl
  · rw [htarget, Option.isSome_map]
  · rw [hsource, Option.isSome_map]
  · rw [hdeclaration, Option.isSome_map]

end ReportEntry

namespace Report

variable {r : Report}

/-- A value tells what a report says: it is an object with a summary and a list of entries, and
with nothing else. -/
structure ToldBy (r : Report) (j : Json) : Prop where
  keys : j.isRecord ["summary", "symbols"] = true
  summary : (j.get? "summary").bind Summary.ofJson? = some r.summary
  entries : ∃ js, (j.get? "symbols").bind Json.list? = some js ∧
    List.Forall₂ ReportEntry.ToldBy r.entries js

theorem toldBy_json (r : Report) : r.ToldBy r.json := by
  constructor
  · rfl
  · exact r.summary.ofJson?_json
  · refine ⟨r.entries.map ReportEntry.json, rfl, ?_⟩
    rw [List.forall₂_map_right_iff]
    exact List.forall₂_same.mpr fun e _ => e.toldBy_json

/-- A value tells of one summary only, and of one row of entries. -/
theorem ToldBy.unique {r' : Report} {j : Json} (h : r.ToldBy j) (h' : r'.ToldBy j) :
    r.summary = r'.summary ∧ r.entries.map (·.row) = r'.entries.map (·.row) := by
  have hrows : ∀ {es : List ReportEntry} {js : List Json}, List.Forall₂ ReportEntry.ToldBy es js →
      js.map ReportRow.ofJson? = (es.map (·.row)).map some := by
    intro es js hes
    induction hes with
    | nil => rfl
    | cons he _ ih => rw [List.map_cons, he.row, ih, List.map_cons, List.map_cons]
  obtain ⟨js, hjs, hes⟩ := h.entries
  obtain ⟨js', hjs', hes'⟩ := h'.entries
  rw [hjs, Option.some_inj] at hjs'
  subst hjs'
  constructor
  · exact Option.some_inj.mp (h.summary.symm.trans h'.summary)
  · exact List.map_injective_iff.mpr (fun _ _ => Option.some.inj)
      ((hrows hes).symm.trans (hrows hes'))

/-! ## Texts of reports -/

/-- The numbers of a report have at most 64 bits. -/
structure Fits (r : Report) : Prop where
  counts : ∀ n ∈ [r.summary.symbols, r.summary.nonNull, r.summary.weakNullable,
    r.summary.strongNullable, r.summary.unknown], n ≤ Json.greatestUnsigned
  line : ∀ e ∈ r.entries, ∀ site, e.site = some site → site.line ≤ Json.greatestUnsigned

end Report

theorem Json.printable_nat {n : Nat} (h : n ≤ Json.greatestUnsigned) :
    (Json.nat n).Printable := by
  have h : n ≤ 18446744073709551615 := h
  refine .int ⟨?_, ?_⟩
  · omega
  · omega

theorem Site.printable_json {s : Site} (h : s.line ≤ Json.greatestUnsigned) :
    s.json.Printable := by
  refine .obj ?_
  rw [List.forall_mem_cons, List.forall_mem_singleton]
  exact ⟨.str s.path, Json.printable_nat h⟩

theorem Summary.printable_json {s : Summary}
    (h : ∀ n ∈ [s.symbols, s.nonNull, s.weakNullable, s.strongNullable, s.unknown],
      n ≤ Json.greatestUnsigned) : s.json.Printable := by
  refine .obj ?_
  simp only [List.forall_mem_cons] at h ⊢
  obtain ⟨hsymbols, hnonNull, hweak, hstrong, hunknown, -⟩ := h
  exact ⟨Json.printable_nat hsymbols, Json.printable_nat hnonNull, Json.printable_nat hweak,
    Json.printable_nat hstrong, Json.printable_nat hunknown, nofun⟩

namespace ReportEntry

variable {e : ReportEntry}

/-- The fields of an entry are strings and marks, except for its site. -/
theorem json_eq_record (e : ReportEntry) : ∃ fields, e.json = .record fields ∧
    ∀ f ∈ fields, ∀ v, f.2 = some v →
      (∃ s, v = .str s) ∨ (∃ b, v = .bool b) ∨ ∃ site, e.site = some site ∧ v = site.json := by
  refine ⟨_, rfl, fun f hf v hv => ?_⟩
  simp only [List.mem_cons, List.not_mem_nil, or_false] at hf
  rcases hf with rfl | rfl | rfl | rfl | rfl | rfl | rfl | rfl
  · cases hv
    exact .inl ⟨_, rfl⟩
  · cases hv
    exact .inl ⟨_, rfl⟩
  · obtain ⟨t, -, rfl⟩ := Option.map_eq_some_iff.mp hv
    exact .inl ⟨_, rfl⟩
  · cases hv
    exact .inl ⟨_, rfl⟩
  · cases hv
    exact .inl ⟨_, rfl⟩
  · obtain ⟨s, -, rfl⟩ := Option.map_eq_some_iff.mp hv
    exact .inl ⟨_, rfl⟩
  · cases hv
    exact .inr (.inl ⟨_, rfl⟩)
  · obtain ⟨site, hsite, rfl⟩ := Option.map_eq_some_iff.mp hv
    exact .inr (.inr ⟨site, hsite, rfl⟩)

theorem printable_json (h : ∀ site, e.site = some site → site.line ≤ Json.greatestUnsigned) :
    e.json.Printable := by
  obtain ⟨fields, heq, hfields⟩ := e.json_eq_record
  rw [heq]
  refine Json.printable_record fun f hf v hv => ?_
  rcases hfields f hf v hv with ⟨s, rfl⟩ | ⟨b, rfl⟩ | ⟨site, hsite, rfl⟩
  · exact .str s
  · exact .bool b
  · exact Site.printable_json (h site hsite)

theorem depth_json_le (e : ReportEntry) : e.json.depth ≤ 2 := by
  obtain ⟨fields, heq, hfields⟩ := e.json_eq_record
  rw [heq]
  refine Json.depth_record_le fun f hf v hv => ?_
  rcases hfields f hf v hv with ⟨s, rfl⟩ | ⟨b, rfl⟩ | ⟨site, -, rfl⟩
  · exact Nat.zero_le 1
  · exact Nat.zero_le 1
  · exact Nat.le_refl 1

end ReportEntry

namespace Report

variable {r : Report}

theorem printable_json (h : r.Fits) : r.json.Printable := by
  refine .obj ?_
  rw [List.forall_mem_cons, List.forall_mem_singleton]
  constructor
  · exact Summary.printable_json h.counts
  · refine .arr fun j hj => ?_
    obtain ⟨e, he, rfl⟩ := List.mem_map.mp hj
    exact ReportEntry.printable_json (h.line e he)

theorem depth_json_le (r : Report) : r.json.depth ≤ 4 := by
  refine Nat.succ_le_succ (Json.depthOfEntries_le_iff.mpr ?_)
  rw [List.forall_mem_cons, List.forall_mem_singleton]
  constructor
  · exact Nat.le_trans (Nat.le_refl 1) (by decide)
  · refine Nat.succ_le_succ (Json.depthOfElements_le_iff.mpr fun j hj => ?_)
    obtain ⟨e, -, rfl⟩ := List.mem_map.mp hj
    exact e.depth_json_le

/-- A report is printed between braces. -/
theorem exists_print_eq (r : Report) : ∃ inner, r.json.print 0 = '{' :: (inner ++ ['}']) :=
  ⟨_, rfl⟩

/-- The text of a report is one object and the end of a line. The object is written in JSON, it
is what the text holds for a reader, and it tells all that the report says. -/
structure ReadsBack (r : Report) (j : Json) : Prop where
  spelled : ∃ inner, r.text.toList = '{' :: (inner ++ ['}', '\n']) ∧
    j.Spelling ('{' :: (inner ++ ['}']))
  read : Json.ofText? r.text = some j
  told : r.ToldBy j

theorem readsBack (h : r.Fits) : r.ReadsBack r.json := by
  obtain ⟨inner, hprint⟩ := r.exists_print_eq
  have hspell := (printable_json h).spelling 0
  have htext : r.text.toList = r.json.print 0 ++ ['\n'] := String.toList_ofList
  have hdepth : r.json.depth ≤ Document.depthLimit := Nat.le_trans r.depth_json_le (by decide)
  constructor
  · refine ⟨inner, ?_, hprint ▸ hspell⟩
    rw [htext, hprint]
    simp
  · exact Json.ofText?_of_spelling hspell hdepth htext
  · exact r.toldBy_json

end Report

/-! ## Reports of graphs -/

namespace Graph

/-- The numbers of a graph fit their words: positions have at most 64 bits, and so have lines. -/
structure Fits (g : Graph) : Prop where
  size : g.size ≤ Json.greatestUnsigned
  line : ∀ i site, (g.symbol i).site = some site → site.line ≤ Json.greatestUnsigned

variable {g : Graph}

/-- The lines of a loaded graph have 32 bits anyway. -/
theorem fits_of_ofText {text : String} (h : ofText text = .ok g)
    (hsize : g.size ≤ Json.greatestUnsigned) : g.Fits :=
  ⟨hsize, fun _ _ hsite => Nat.le_trans (fitsWord_of_ofText h hsite) (by decide)⟩

theorem Fits.report (h : g.Fits) : g.report.Fits := by
  have hlength : g.report.entries.length ≤ g.size := by
    show (g.reported.map g.entry).length ≤ g.size
    rw [List.length_map]
    exact Nat.le_trans (List.length_filter_le _ _) (Nat.le_of_eq List.length_range)
  constructor
  · have hcount : ∀ p, g.report.entries.countP p ≤ Json.greatestUnsigned := fun p =>
      Nat.le_trans (Nat.le_trans List.countP_le_length hlength) h.size
    have hsummary : g.report.summary = _ := Summary.ofEntries_eq g.report.entries
    simp only [hsummary, List.forall_mem_cons]
    exact ⟨Nat.le_trans hlength h.size, hcount _, hcount _, hcount _, hcount _, nofun⟩
  · intro e he site hsite
    obtain ⟨i, -, rfl⟩ := List.mem_map.mp he
    obtain ⟨a, -, hsite⟩ := Option.bind_eq_some_iff.mp hsite
    exact h.line _ _ hsite

/-- **Reading back.** The text of a report, whatever characters its names and paths have, is one
JSON object and the end of a line. Read as JSON, it gives an object that has a summary and a
list of entries and nothing else. The summary has the counts of the report. The entries tell, in
their order and field by field, what is reported: the target, the annotation and the
declaration are there exactly if the report has them. So reports of one text say the same. -/
theorem report_readback (h : g.Fits) : g.report.ReadsBack g.report.json ∧
    ∀ r : Report, r.Fits → r.text = g.report.text → r.summary = g.report.summary ∧
      r.entries.map (·.row) = g.report.entries.map (·.row) := by
  have hreads := Report.readsBack h.report
  refine ⟨hreads, fun r hr htext => ?_⟩
  have hsame := (Report.readsBack hr).read
  rw [htext, hreads.read, Option.some_inj] at hsame
  exact (hsame ▸ r.toldBy_json).unique hreads.told

/-- Names and a path with quotes, backslashes, controls and characters beyond ASCII. -/
def escaping : Registry :=
  Registry.run {}
    [ .package "p\"", .member .cls "\\C\x01" (some 0) false, .member .var "é\n😀" (some 1) false,
      .ensureClass "javax.annotation.CheckForNull", .annotate 2 ⟨4, []⟩,
      .setSite 4 ⟨"\\A\x1f.java", 4294967295⟩ ]

theorem fits_escaping : escaping.Fits := by
  constructor
  · decide
  · intro i site hsite
    have hall : ∀ i < 5, ∀ s ∈ (escaping.symbol i).site, s.line ≤ Json.greatestUnsigned := by decide
    by_cases hi : i < 5
    · exact hall i hi site hsite
    · rw [symbol_of_le _ (Nat.le_of_not_lt hi)] at hsite
      cases hsite

/-- The field is reported with its name and the path of the annotation, and both are read back. -/
theorem readback_escaping : escaping.Fits ∧
    escaping.report.entries.map (fun e => (e.symbol, e.site)) =
      [("p\".\\C\x01.é\n😀", some ⟨"\\A\x1f.java", 4294967295⟩)] ∧
    escaping.report.ReadsBack escaping.report.json := by
  refine ⟨fits_escaping, ?_, (report_readback fits_escaping).1⟩
  decide +kernel

end Graph

end Nullness
