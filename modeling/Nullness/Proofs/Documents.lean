import Nullness.Loading
import Nullness.Proofs.Records

/-!
# Documents as they are written

All texts of a document are read as the same entries. Blanks, the spelling of strings, the order
of keys, the form of a record and whether a default is written do not matter.

- `Document.read_of_writes`: the entries are read as they were written.
- `Document.Writes.unique`: a text writes one document at most.
- `Graph.ofText_of_writes`: the graph of a text is that of the entries it writes.
-/

namespace Nullness

namespace Document

open Json.Reader

/-! ## Sites -/

/-- The fields of a site that have been seen. -/
def siteDraft (site : Site) (seen : List String) : SiteDraft :=
  ⟨given seen "path" site.path, given seen "line" site.line⟩

theorem restores_siteRecord (site : Site) :
    siteRecord.Restores (siteSlots site) (siteDraft site) site where
  nodup := by
    show ["path", "line"].Nodup
    decide
  start := rfl
  fills := by
    refine .cons (.of (fun _ => rfl) (fun _ => by simp [siteDraft]) ?_)
      (.cons (.of (fun _ => rfl) (fun _ => by simp [siteDraft]) ?_) .nil)
    · rintro _ rfl
      exact (reads_string site.path).nested
    · rintro _ ⟨hline, rfl⟩
      exact (reads_word32 hline).nested
  finish seen h := by
    simp only [siteSlots, Slot.suffice_cons] at h
    obtain ⟨hpath, hline, -⟩ := h
    simp only [siteRecord, siteDraft, given_of_mem (not_not.mp hpath),
      given_of_mem (not_not.mp hline)]

/-! ## Arguments and annotations -/

theorem fills_valueField (a : ArgumentEntry) :
    Fills a.draft ⟨"value", fun j => a.value.WrittenAs j, False⟩ valueField where
  name := rfl
  isSet seen hfresh := by
    show (a.draft seen).value.isSome = false
    rw [ArgumentEntry.draft, given_of_notMem hfresh, Option.isSome_none]
  reads seen v hv levels hlevels b s t hb hs ht := by
    refine (reads_tree hlevels hb hs ht).bind ?_
    rw [ValueEntry.ofJson?_of_written hv]
    have hdraft : { a.draft seen with value := some a.value } = a.draft ("value" :: seen) := by
      simp [ArgumentEntry.draft]
    dsimp only
    rw [hdraft]
    exact takes_pure _ t

theorem restores_argumentRecord (a : ArgumentEntry) :
    argumentRecord.Restores a.slots a.draft a where
  nodup := by
    show ["name", "value"].Nodup
    decide
  start := rfl
  fills := by
    refine .cons (.of (fun _ => rfl) (fun _ => by simp [ArgumentEntry.draft]) ?_)
      (.cons (fills_valueField a) .nil)
    rintro _ rfl
    exact (reads_string a.name).nested
  finish seen h := by
    rw [ArgumentEntry.draft_of_suffice h]
    cases a
    rfl

theorem restores_annotationRecord (a : AnnotationEntry) :
    annotationRecord.Restores a.slots a.draft a where
  nodup := by
    show ["type", "unresolved", "arguments"].Nodup
    decide
  start := rfl
  fills := by
    refine .cons (.of (fun _ => rfl) (fun _ => by simp [AnnotationEntry.draft]) ?_)
      (.cons (.of (fun _ => rfl) (fun _ => by simp [AnnotationEntry.draft]) ?_)
        (.cons (.of (fun _ => rfl) (fun _ => by simp [AnnotationEntry.draft]) ?_) .nil))
    · rintro _ rfl
      exact (reads_string a.type).nested
    · rintro _ rfl
      exact (reads_boolean a.isUnresolved).nested
    · rintro _ ⟨js, hjs, rfl⟩
      exact reads_list ((ArgumentEntry.allWritten_iff.mp hjs).imp fun a _ hj =>
        (restores_argumentRecord a).reads hj)
  finish seen h := by
    simp only [annotationRecord, AnnotationEntry.complete?_draft h]

/-! ## Symbols -/

theorem reads_kind (k : Kind) : ReadsNested kind (.str k.word) k := by
  intro levels _ b s t hb hs _
  have hsolid := solid_spelling hs t
  cases hs with
  | str h =>
      obtain ⟨hchars⟩ := h
      rw [List.cons_append, List.append_assoc] at hsolid ⊢
      refine takes_blanks_bind hb hsolid (takes_peek_bind (takes_advance_bind ?_))
      refine (takes_literalRest hchars t).bind ?_
      dsimp only
      rw [Kind.ofWord?_word]
      exact takes_pure k t

theorem Slot.Written.ne_null {slots : List Slot} {j : Json} (h : Slot.Written slots j) :
    j ≠ .null := by
  rintro rfl
  cases h

theorem reads_owner (owner : Option String) :
    (optional string).Reads (owner.elim .null .str) owner := by
  cases owner with
  | none => exact reads_optional_null string
  | some w => exact reads_optional (reads_string w) nofun

theorem reads_site {site : Option Site} {j : Json}
    (h : site.elim (j = .null) fun site => Slot.Written (siteSlots site) j) :
    ReadsNested (fun levels => optional (siteRecord.read levels)) j site := by
  cases site with
  | none =>
      obtain rfl : j = .null := h
      intro levels _
      exact reads_optional_null (siteRecord.read levels)
  | some site =>
      have h : Slot.Written (siteSlots site) j := h
      intro levels hlevels
      exact reads_optional ((restores_siteRecord site).reads h hlevels) h.ne_null

/-- The fields of a symbol that have been seen. -/
def SymbolEntry.draft (e : SymbolEntry) (seen : List String) : SymbolDraft where
  id := given seen "id" e.id
  kind := given seen "kind" e.kind
  name := given seen "name" e.name
  owner := given seen "owner" e.owner
  isLocal := given seen "local" e.isLocal
  isUnknown := given seen "unknown" e.isUnknown
  site := given seen "declaration" e.site
  annotations := given seen "annotations" e.annotations

theorem restores_symbolRecord (e : SymbolEntry) :
    symbolRecord.Restores e.slots e.draft e where
  nodup := by
    show ["id", "kind", "name", "owner", "local", "unknown", "declaration", "annotations"].Nodup
    decide
  start := rfl
  fills := by
    refine .cons (.of (fun _ => rfl) (fun _ => by simp [SymbolEntry.draft]) ?_) <|
      .cons (.of (fun _ => rfl) (fun _ => by simp [SymbolEntry.draft]) ?_) <|
      .cons (.of (fun _ => rfl) (fun _ => by simp [SymbolEntry.draft]) ?_) <|
      .cons (.of (fun _ => rfl) (fun _ => by simp [SymbolEntry.draft]) ?_) <|
      .cons (.of (fun _ => rfl) (fun _ => by simp [SymbolEntry.draft]) ?_) <|
      .cons (.of (fun _ => rfl) (fun _ => by simp [SymbolEntry.draft]) ?_) <|
      .cons (.of (fun _ => rfl) (fun _ => by simp [SymbolEntry.draft]) ?_) <|
      .cons (.of (fun _ => rfl) (fun _ => by simp [SymbolEntry.draft]) ?_) .nil
    · rintro _ rfl
      exact (reads_string e.id).nested
    · rintro _ rfl
      exact reads_kind e.kind
    · rintro _ rfl
      exact (reads_string e.name).nested
    · rintro _ rfl
      exact (reads_owner e.owner).nested
    · rintro _ rfl
      exact (reads_boolean e.isLocal).nested
    · rintro _ rfl
      exact (reads_boolean e.isUnknown).nested
    · exact fun _ h => reads_site h
    · rintro _ ⟨js, hjs, rfl⟩
      exact reads_list (hjs.imp fun a _ hj =>
        (restores_annotationRecord a).reads (AnnotationEntry.writtenAs_iff.mp hj))
  finish seen h := by
    simp only [SymbolEntry.slots, Slot.suffice_cons] at h
    obtain ⟨hid, hkind, hname, howner, hlocal, hunknown, hsite, hannotations, -⟩ := h
    simp only [symbolRecord, SymbolEntry.draft, given_of_mem (not_not.mp hid),
      given_of_mem (not_not.mp hkind), given_of_mem (not_not.mp hname), join_given howner,
      getD_given hlocal, getD_given hunknown, join_given hsite, getD_given hannotations]

/-! ## Documents -/

theorem restores_record (es : List SymbolEntry) :
    record.Restores (slots es) (fun seen => ⟨given seen "symbols" es⟩) es where
  nodup := by
    show ["symbols"].Nodup
    decide
  start := rfl
  fills := by
    refine .cons (.of (fun _ => rfl) (fun _ => by simp) ?_) .nil
    rintro _ ⟨js, hjs, rfl⟩
    exact reads_list (hjs.imp fun e _ hj => (restores_symbolRecord e).reads hj)
  finish seen h := by
    simp only [slots, Slot.suffice_cons] at h
    simp only [record, given_of_mem (not_not.mp h.1)]

/-- **Reading.** The entries that a text writes are read from it. -/
theorem read_of_writes {text : String} {es : List SymbolEntry} (h : Writes text es) :
    read text = .ok es := by
  obtain ⟨hwritten, hdepth, hspell, hbefore, hafter, htext⟩ := h
  have hbreaks : Breaks [] := nofun
  have htakes := (restores_record es).reads hwritten hdepth hbefore hspell
    (List.append_nil _ ▸ breaks_blank hafter hbreaks)
  rw [← htext] at htakes
  obtain ⟨le, hread⟩ := htakes
  rw [read, hread]

/-- No text writes two documents. -/
theorem Writes.unique {text : String} {es es' : List SymbolEntry} (h : Writes text es)
    (h' : Writes text es') : es = es' := by
  have heq := (read_of_writes h).symm.trans (read_of_writes h')
  cases heq
  rfl

end Document

open Document

/-- **Texts of a document.** However entries are written, the text gives the same graph or the
same fault as the entries. -/
theorem Graph.ofText_of_writes {text : String} {es : List SymbolEntry} (h : Writes text es) :
    Graph.ofText text = Graph.ofEntries es := by
  rw [Graph.ofText, read_of_writes h]

/-! ## A text with both forms -/

namespace Document

open Json (Blank CharsSpelling Literal Spelling)

def somePackage : SymbolEntry := { id := "p", kind := .pkg, name := "p" }

def someClass : SymbolEntry := { id := "c", kind := .cls, name := "C", owner := some "p" }

/-- The package as a list and the class as an object, its keys in another order. -/
def bothForms : String :=
  "\x7b\"symbols\" : [[\"p\",\"package\",\"\\u0070\"], " ++
    "\x7b\"name\":\"C\",\"local\":false,\"owner\":\"p\",\"id\":\"c\",\"kind\":\"class\"\x7d]\x7d\n"

theorem written_somePackage :
    Slot.Written somePackage.slots (.arr [.str "p", .str "package", .str "p"]) := by
  refine .list (.cons rfl (.cons rfl (.cons rfl (.nil ?_))))
  simp [somePackage]

theorem written_someClass :
    Slot.Written someClass.slots
      (.obj [("name", .str "C"), ("local", .bool false), ("owner", .str "p"), ("id", .str "c"),
        ("kind", .str "class")]) := by
  refine .object ⟨by decide, ?_, ?_⟩
  · simp [SymbolEntry.slots, someClass, Kind.word]
  · simp [Slot.Suffice, SymbolEntry.slots, someClass]

theorem writes_bothForms : Writes bothForms [somePackage, someClass] := by
  have hno : Blank [] := by decide
  have hspace : Blank [' '] := by decide
  have hletters : CharsSpelling "p".toList ['\\', 'u', '0', '0', '7', '0'] :=
    .cons (t := []) (.code (by decide)) .nil
  have hescaped : Literal "p" ['"', '\\', 'u', '0', '0', '7', '0', '"'] := .mk hletters
  have hpackage : Spelling (.arr [.str "p", .str "package", .str "p"]) _ :=
    .arr (.cons hno (.str (.plain (by decide)))
      (.cons hno hno (.str (.plain (by decide))) (.cons hno hno (.str hescaped) (.nil hno))))
  have hclass : Spelling
      (.obj [("name", .str "C"), ("local", .bool false), ("owner", .str "p"), ("id", .str "c"),
        ("kind", .str "class")]) _ :=
    .obj (.cons hno (.plain (by decide)) hno hno (.str (.plain (by decide)))
      (.cons hno hno (.plain (by decide)) hno hno .false
      (.cons hno hno (.plain (by decide)) hno hno (.str (.plain (by decide)))
      (.cons hno hno (.plain (by decide)) hno hno (.str (.plain (by decide)))
      (.cons hno hno (.plain (by decide)) hno hno (.str (.plain (by decide))) (.nil hno))))))
  have hspell : Spelling (.obj [("symbols", .arr [_, _])]) _ :=
    .obj (.cons hno (.plain (by decide)) hspace hspace
      (.arr (.cons hno hpackage (.cons hno hspace hclass (.nil hno)))) (.nil hno))
  refine .mk (.object ⟨by decide, ?_, ?_⟩) (by decide) hspell hno (by decide : Blank ['\n'])
    (by decide)
  · rintro _ (_ | ⟨_, ⟨⟩⟩)
    exact ⟨_, List.mem_cons_self, rfl, _,
      .cons written_somePackage (.cons written_someClass .nil), rfl⟩
  · simp [Slot.Suffice, slots]

end Document

theorem Graph.ofText_bothForms :
    Writes bothForms [somePackage, someClass] ∧
      Graph.ofText bothForms = Graph.ofEntries [somePackage, someClass] :=
  ⟨writes_bothForms, Graph.ofText_of_writes writes_bothForms⟩

end Nullness
