import Nullness.Proofs.Naming
import Nullness.Proofs.Provenance
import Nullness.Proofs.Summaries

/-!
# What a report holds

A report has one entry for each method and variable of the document, and for nothing else:
not for packages and classes, and not for what is only referred to. It follows the order of
the graph, its entries agree with themselves, and its summary counts them.

- `Graph.reported_perm_of`: the symbols that are reported, told by the entries of a document.
- `ReportEntry.Coherent`, `Graph.coherent_entry`: the parts of an entry agree.
- `ReportEntry.Describes`, `Graph.describes_entry`: which name, kind and target an entry has,
  told by what the document says of its symbol.
- `Graph.ofText_reports`: what is reported of a document.
-/

namespace Nullness

open Document

/-- Methods and variables are reported. -/
def Document.SymbolEntry.isReported (e : SymbolEntry) : Bool :=
  e.kind == .method || e.kind == .var

theorem Document.SymbolEntry.isReported_iff {e : SymbolEntry} :
    e.isReported = true ↔ e.kind = .method ∨ e.kind = .var := by
  simp [isReported]

theorem Graph.isReported_iff {g : Graph} {i : SymbolId} :
    g.isReported i = true ↔ ((g.symbol i).kind = .method ∨ (g.symbol i).kind = .var) ∧
      (g.symbol i).isSynthetic = false := by
  simp [isReported]

/-! ## Entries -/

/-- The parts of an entry agree: it names no annotation exactly if it says nothing about null,
exactly if it has no level. Without a target it says nothing, and only an annotation that is
named can have a site. -/
structure ReportEntry.Coherent (e : ReportEntry) : Prop where
  source : e.source = none ↔ e.verdict.nullability? = none
  level : e.verdict.nullability? = none ↔ e.verdict.level = .unknown
  target : e.target = none → e.verdict.nullability? = none
  site : e.site ≠ none → e.source ≠ none

theorem Graph.coherent_entry (g : Graph) (i : SymbolId) : (g.entry i).Coherent := by
  have hcoherent := g.coherent_nullability i
  constructor
  · show (g.nullability i).source?.map g.typeName = none ↔ (g.nullability i).nullability? = none
    rw [Option.map_eq_none_iff, hcoherent.level, hcoherent.source]
  · exact hcoherent.level
  · intro htarget
    have hnone : g.target? i = none := htarget
    show (g.nullability i).nullability? = none
    rw [nullability, hnone]
    rfl
  · intro hsite hsource
    have hnone : (g.nullability i).source? = none := Option.map_eq_none_iff.mp hsource
    apply hsite
    show (g.nullability i).source?.bind (fun a => (g.symbol a.type).site) = none
    rw [hnone]
    rfl

/-- The target that an entry of a document suggests. A method suggests its result. A variable
that is not local suggests a field or a parameter, if its owner is a class or a method. -/
inductive Document.Suggests (es : List SymbolEntry) (e : SymbolEntry) : Option Target → Prop
  | result : e.kind = .method → Suggests es e (some .result)
  | localVar : e.kind = .var → e.isLocal = true → Suggests es e none
  | field {o : SymbolEntry} : e.kind = .var → e.isLocal = false → OwnedBy es e o →
      o.kind = .cls → Suggests es e (some .field)
  | parameter {o : SymbolEntry} : e.kind = .var → e.isLocal = false → OwnedBy es e o →
      o.kind = .method → Suggests es e (some .parameter)
  | elsewhere : e.kind = .var → e.isLocal = false →
      (∀ o, OwnedBy es e o → o.kind ≠ .cls ∧ o.kind ≠ .method) → Suggests es e none

/-- An entry of a report is about this entry of the document. -/
structure ReportEntry.Describes (r : ReportEntry) (es : List SymbolEntry) (e : SymbolEntry) :
    Prop where
  symbol : Named es e r.symbol
  kind : r.kind = e.kind
  target : Suggests es e r.target

/-- The target of a symbol is that of its entry. -/
theorem Graph.suggests_target? {es : List SymbolEntry} {g : Graph} {home : String → SymbolId}
    {e : SymbolEntry} (hd : ∀ e ∈ es, g.Declares home e)
    (howner : ∀ e ∈ es, ∀ w, e.owner = some w → ∃ o ∈ es, o.id = w) (he : e ∈ es)
    (hk : e.isReported = true) : Suggests es e (g.target? (home e.id)) := by
  have hdeclared := hd e he
  rcases SymbolEntry.isReported_iff.mp hk with hk | hk
  · have htarget : g.target? (home e.id) = some .result := by
      simp [target?, hdeclared.kind, hk]
    rw [htarget]
    exact .result hk
  obtain ⟨-, hlocal, hown⟩ := hdeclared.own fun hjoin => by rw [hjoin.1] at hk; cases hk
  simp only [target?, hdeclared.kind, hk, hlocal, hown]
  cases hl : e.isLocal with
  | true => exact .localVar hk hl
  | false =>
      cases hw : e.owner with
      | none => exact .elsewhere hk hl fun o ho => by simp [ho.2] at hw
      | some w =>
          obtain ⟨o, ho, rfl⟩ := howner e he w hw
          have howned : OwnedBy es e o := ⟨ho, hw⟩
          have hunique : ∀ p, OwnedBy es e p → p.kind = (g.symbol (home o.id)).kind := by
            intro p hp
            rw [← (hd p hp.1).kind, Option.some.inj (hp.2.symm.trans hw)]
          simp only [Bool.false_eq_true, ↓reduceIte, Option.map_some, (hd o ho).kind] at hunique ⊢
          cases hko : o.kind with
          | cls => exact .field hk hl howned hko
          | method => exact .parameter hk hl howned hko
          | pkg => exact .elsewhere hk hl fun p hp => by rw [hunique p hp, hko]; decide
          | var => exact .elsewhere hk hl fun p hp => by rw [hunique p hp, hko]; decide

/-- The entry of a report for the symbol of an entry is about that entry. -/
theorem Graph.describes_entry {es : List SymbolEntry} {g : Graph} {home : String → SymbolId}
    {e : SymbolEntry} (hd : ∀ e ∈ es, g.Declares home e)
    (howner : ∀ e ∈ es, ∀ w, e.owner = some w → ∃ o ∈ es, o.id = w)
    (hrooted : Rooted es e) (he : e ∈ es) (hk : e.isReported = true) :
    (g.entry (home e.id)).Describes es e where
  symbol := by
    obtain ⟨q, hq⟩ := hrooted.exists_named
    rw [show (g.entry (home e.id)).symbol = q from qualifiedName_of_named hd he hq]
    exact hq
  kind := (hd e he).kind
  target := suggests_target? hd howner he hk

/-! ## Reports of documents -/

namespace Graph

variable {es : List SymbolEntry} {g : Graph} {home : String → SymbolId} {n : Nat}

/-- If entries have their symbols in a graph, and behind these there are only packages and what
was never declared, then the symbols that are reported are those of the methods and variables
among the entries. -/
theorem reported_perm_of (hd : es.Nodup) (hdeclares : ∀ e ∈ es, g.Declares home e)
    (hunshared : ∀ e ∈ es, e.kind ≠ .pkg → ∀ o ∈ es, home o.id = home e.id → o = e)
    (hinitial : ∀ i, i < n ↔ ∃ e ∈ es, home e.id = i)
    (hbehind : ∀ i, n ≤ i → i < g.size →
      (g.symbol i).kind = .pkg ∨ (g.symbol i).isSynthetic = true) :
    g.reported.Perm ((es.filter (·.isReported)).map (home ·.id)) := by
  have hnodup : ((es.filter (·.isReported)).map (home ·.id)).Nodup := by
    refine List.Nodup.map_on (fun e he o ho hhome => ?_) (hd.filter _)
    obtain ⟨ho, hk⟩ := List.mem_filter.mp ho
    refine hunshared o ho (fun hpkg => ?_) e (List.mem_of_mem_filter he) hhome
    rcases SymbolEntry.isReported_iff.mp hk with hk | hk <;> rw [hk] at hpkg <;> cases hpkg
  refine (List.perm_ext_iff_of_nodup (List.nodup_range.filter _) hnodup).mpr fun i => ?_
  simp only [List.mem_filter, List.mem_range, List.mem_map]
  constructor
  · rintro ⟨hlt, hi⟩
    obtain ⟨hkind, hsynthetic⟩ := isReported_iff.mp hi
    have hin : i < n := by
      by_contra hge
      rcases hbehind i (Nat.le_of_not_lt hge) hlt with hk | hs
      · rw [hk] at hkind
        rcases hkind with hkind | hkind <;> cases hkind
      · rw [hs] at hsynthetic
        cases hsynthetic
    obtain ⟨e, he, rfl⟩ := (hinitial i).mp hin
    rw [(hdeclares e he).kind] at hkind
    exact ⟨e, ⟨he, SymbolEntry.isReported_iff.mpr hkind⟩, rfl⟩
  · rintro ⟨e, ⟨he, hk⟩, rfl⟩
    have hdeclared := hdeclares e he
    refine ⟨hdeclared.lt, isReported_iff.mpr ⟨?_, hdeclared.isSynthetic⟩⟩
    rw [hdeclared.kind]
    exact SymbolEntry.isReported_iff.mp hk

/-- What references add to a registry are packages and symbols that are not declared. -/
theorem Loaded.supplied {placed : List SymbolEntry} {base r : Registry} {done : Registry.Declared}
    (h : Loaded es g home placed base r done) :
    Registry.Supplied (fun _ _ => True) base r := by
  have hpackage : ∀ {s : Registry} {q : String}, s.findKind? q .cls = none → True ∧
      ∀ outer name, Registry.splitLastDot q = some (outer, name) →
        s.findKind? outer .cls = none → True :=
    fun _ => ⟨trivial, fun _ _ _ _ => trivial⟩
  have hI : Registry.Interprets (fun _ => Registry.Supplied (fun _ _ => True) base) g
      (fun _ _ => True) (Registry.byName g) := by
    refine ⟨fun {s _ q u} hs _ => ⟨hs.typeOf u fun hnone _ => hpackage hnone, fun hg => ?_⟩,
      fun {s _ c front last} hs _ hc => ⟨hs.enumConstant hc hpackage trivial, fun hg => ?_⟩,
      fun _ _ hs => hs⟩
    · exact (hs.exact.namesClass_typeOf q u).mono hg
    · exact (hs.exact.knows_enumConstant hc).mono hg
  have htolerates : Registry.Tolerates (Registry.Supplied (fun _ _ => True) base) :=
    ⟨fun id a hs => hs.annotate id a, fun id site hs => hs.setSite id site⟩
  exact (h.described_by hI htolerates h.placed.reachable.exact.supplied
    fun _ _ _ _ _ _ => trivial).invariant

/-- A report of entries. It has one entry for each method and variable among them and no other,
in the order of the graph. Each has the name, the kind and the target of what it is about, and
what the graph says of its symbol. Its entries agree with themselves, and its summary counts
them. -/
structure Reports (g : Graph) (home : String → SymbolId) (es : List SymbolEntry) : Prop where
  entries : g.report.entries = g.reported.map g.entry
  complete : g.reported.Perm ((es.filter (·.isReported)).map (home ·.id))
  increasing : g.reported.Pairwise (· < ·)
  described : ∀ e ∈ es, e.isReported = true → (g.entry (home e.id)).Describes es e
  coherent : ∀ e ∈ g.report.entries, e.Coherent
  summary : g.report.summary.Counts g.report.entries

theorem Loaded.reports {placed : List SymbolEntry} {base r : Registry} {done : Registry.Declared}
    (h : Loaded es g home placed base r done) (ha : Acceptable es) : g.Reports home es := by
  have hosts := h.hosts ha
  constructor
  · rfl
  · refine reported_perm_of (ha.distinct.of_map _) hosts.declares hosts.unshared hosts.initial ?_
    intro i hi hlt
    rw [← h.graph] at hlt ⊢
    exact (h.supplied.supply i hi hlt).undeclared
  · exact List.pairwise_lt_range.filter _
  · exact fun e he => describes_entry hosts.declares hosts.owner (ha.rooted e he) he
  · intro e he
    obtain ⟨i, -, rfl⟩ := List.mem_map.mp he
    exact g.coherent_entry i
  · exact Summary.counts_ofEntries _

/-- **Reports.** Whatever text is loaded as a graph, its report has one entry for each method
and variable that the text declares and none for anything else, in the order of the graph, with
the qualified name, the kind and the target that the text gives it. In each entry the annotation
is left out exactly if nothing is said about null, and exactly if there is no level; an entry
without a target says nothing, and only an annotation that is named has a site. The summary has
the number of entries, which is the sum of its four counts, and each of these is the number of
entries that say one thing. -/
theorem ofText_reports {text : String} (h : Graph.ofText text = .ok g) :
    ∃ es home placed n, Document.read text = .ok es ∧ g.Hosts home es placed n ∧
      g.Reports home es := by
  rw [ofText] at h
  cases hread : Document.read text with
  | error d =>
      rw [hread] at h
      cases h
  | ok es =>
      rw [hread] at h
      have ha := acceptable_of_ofEntries h
      obtain ⟨home, placed, base, r, done, hl⟩ := exists_loaded h
      exact ⟨es, home, placed, base.size, rfl, hl.hosts ha, hl.reports ha⟩

/-- A class with a method, a constant and a field. The annotation of the field mentions the
constant and another one that is not declared, and neither is its type. -/
def referring : String :=
  "\x7b\"symbols\":[[\"C\",\"class\",\"C\"],[\"m\",\"method\",\"m\",\"C\"]," ++
    "[\"k\",\"variable\",\"k\",\"C\"],\x7b\"id\":\"f\",\"kind\":\"variable\",\"name\":\"f\"," ++
    "\"owner\":\"C\",\"annotations\":[\x7b\"type\":\"javax.annotation.Nonnull\"," ++
    "\"arguments\":[\x7b\"name\":\"when\",\"value\":[\x7b\"enum\":\"C.k\"\x7d," ++
    "\x7b\"enum\":\"C.MAYBE\"\x7d]\x7d]\x7d]\x7d]\x7d"

theorem size_referring : (Graph.ofText referring).toOption.map (fun g => (g.size, g.reported)) =
    some (7, [1, 2, 3]) := by
  decide +kernel

/-- Of the seven symbols of the graph, the method, the declared constant and the field are
reported. The other constant, the type and its package are not, and neither is the class. -/
theorem reports_referring : ∃ (g : Graph) (es : List SymbolEntry) (home : String → SymbolId)
    (placed : List SymbolEntry) (n : Nat), Graph.ofText referring = .ok g ∧ g.size = 7 ∧
      g.reported = [1, 2, 3] ∧ Document.read referring = .ok es ∧ g.Hosts home es placed n ∧
      g.Reports home es := by
  have hsize := size_referring
  cases hload : Graph.ofText referring with
  | error err =>
      rw [hload] at hsize
      cases hsize
  | ok g =>
      rw [hload] at hsize
      obtain ⟨es, home, placed, n, hread, hosts, hreports⟩ := ofText_reports hload
      injection hsize with hsize
      injection hsize with hsize hreported
      exact ⟨g, es, home, placed, n, rfl, hsize, hreported, hread, hosts, hreports⟩

end Graph

end Nullness
