import Nullness.Proofs.Reported
import Nullness.Proofs.Resolution
import Nullness.Proofs.Settled

/-!
# Entries in another order

The order of the entries decides where symbols stand, and which symbols are supplied first. If
no name is ambiguous, that is all it decides: entries in another order give a graph in which
every method and variable has the same report, and the reports differ only in their order.

- `Graph.Settled.entry_eq`: what is reported of an entry is settled.
- `Graph.Settled.reported_perm`: the entries that are reported.
- `Graph.ofEntries_perm`: entries in another order.
- `Graph.order_decides_overlooked`, `Graph.order_decides_supplied`: neither kind of ambiguous
  name can be allowed.
-/

namespace Nullness

open Document

namespace Document

variable {es es' : List SymbolEntry}

theorem Rooted.of_subset (hs : es ⊆ es') {e : SymbolEntry} (h : Rooted es e) : Rooted es' e := by
  induction h with
  | root hn => exact .root hn
  | owned ho _ ih => exact .owned ⟨hs ho.1, ho.2⟩ ih

theorem Acceptable.of_perm (hp : es.Perm es') (h : Acceptable es) : Acceptable es' where
  distinct := (hp.map _).nodup_iff.mp h.distinct
  owners e he w hw := by
    obtain ⟨o, ho, hid⟩ := h.owners e (hp.mem_iff.mpr he) w hw
    exact ⟨o, hp.mem_iff.mp ho, hid⟩
  rooted e he := (h.rooted e (hp.mem_iff.mpr he)).of_subset hp.subset
  qualified e he := h.qualified e (hp.mem_iff.mpr he)

theorem DistinctNames.of_perm (hp : es.Perm es') (h : DistinctNames es) : DistinctNames es' :=
  fun e he o ho q hq hq' => h e (hp.mem_iff.mpr he) o (hp.mem_iff.mpr ho) q
    (hq.of_subset hp.symm.subset) (hq'.of_subset hp.symm.subset)

end Document

/-! ## Summaries -/

theorem Summary.ofEntries_eq_of_perm {es es' : List ReportEntry}
    (h : (es.map (·.verdict.nullability?)).Perm (es'.map (·.verdict.nullability?))) :
    Summary.ofEntries es = Summary.ofEntries es' := by
  have hlength : es.length = es'.length := by simpa using h.length_eq
  have hcount : ∀ n : Option Nullability, es.countP (·.verdict.nullability? = n) =
      es'.countP (·.verdict.nullability? = n) := fun n => by
    have hn := h.countP_eq (fun m => decide (m = n))
    rwa [List.countP_map, List.countP_map] at hn
  simp only [Summary.ofEntries_eq, hlength, hcount]

namespace Graph

variable {es es' : List SymbolEntry} {g g' : Graph} {home home' : String → SymbolId} {n n' : Nat}
variable {e o : SymbolEntry}

/-- Acceptable entries are loaded. -/
theorem exists_of_acceptable (h : Acceptable es) : ∃ g, Graph.ofEntries es = .ok g := by
  cases hload : Graph.ofEntries es with
  | ok g => exact ⟨g, rfl⟩
  | error err => exact absurd h (holds_of_ofEntries hload).not_acceptable

namespace Settled

/-! ## Owners and targets -/

theorem exists_owner (h : g.Settled home es n) (he : e ∈ es) {w : String} (hw : e.owner = some w) :
    ∃ o ∈ es, o.id = w := by
  obtain ⟨q, hq⟩ := h.named e he
  cases hq with
  | root hn => simp [hn] at hw
  | @owned _ o _ ho _ => exact ⟨o, ho.1, by simpa [ho.2] using hw⟩

theorem owner_eq (h : g.Settled home es n) (he : e ∈ es) (hk : e.kind ≠ .pkg) :
    (g.symbol (home e.id)).owner = e.owner.map home :=
  ((h.declares e he).own fun hj => hk hj.1).2.2

/-- A package has no owners, and neither has an entry without an owner. -/
theorem owners_eq_nil (h : g.Settled home es n) (he : e ∈ es)
    (hnone : e.kind = .pkg ∨ e.owner = none) : g.owners (home e.id) = [] := by
  have hkind := (h.declares e he).kind
  by_cases hk : e.kind = .pkg
  · exact (h.sound.ownerChain_iff.mp (.package (hkind.trans hk))).symm
  · have howner : (g.symbol (home e.id)).owner = none := by
      rw [h.owner_eq he hk, hnone.resolve_left hk]
      rfl
    exact (h.sound.ownerChain_iff.mp (.root (fun hp => hk (hkind.symm.trans hp)) howner)).symm

theorem owners_eq_cons (h : g.Settled home es n) (he : e ∈ es) (hk : e.kind ≠ .pkg)
    (ho : OwnedBy es e o) : g.owners (home e.id) = home o.id :: g.owners (home o.id) := by
  have howner : (g.symbol (home e.id)).owner = some (home o.id) := by
    rw [h.owner_eq he hk, ho.2]
    rfl
  have hkind := (h.declares e he).kind
  exact (h.sound.ownerChain_iff.mp (.owned (fun hp => hk (hkind.symm.trans hp)) howner
    (h.sound.ownerChain_owners _))).symm

section Two
variable (h : g.Settled home es n) (h' : g'.Settled home' es n')
include h h'

/-- The owners of an entry have their symbols in both graphs, up to the first package. -/
theorem owners_paired (he : e ∈ es) :
    List.Forall₂ (Paired g g' home home' es) (g.owners (home e.id)) (g'.owners (home' e.id)) := by
  obtain ⟨q, hq⟩ := h.named e he
  induction hq with
  | root hn =>
    rw [h.owners_eq_nil he (.inr hn), h'.owners_eq_nil he (.inr hn)]
    exact .nil
  | @owned e o q ho _ ih =>
    by_cases hk : e.kind = .pkg
    · rw [h.owners_eq_nil he (.inl hk), h'.owners_eq_nil he (.inl hk)]
      exact .nil
    · rw [h.owners_eq_cons he hk ho, h'.owners_eq_cons he hk ho]
      exact .cons (.entry ho.1) (ih ho.1)

theorem target?_eq (he : e ∈ es) : g'.target? (home' e.id) = g.target? (home e.id) := by
  have hd := h.declares e he
  have hd' := h'.declares e he
  by_cases hk : e.kind = .pkg
  · rw [target?, target?, hd.kind, hd'.kind, hk]
  · have hj : ¬ e.Joinable := fun hj => hk hj.1
    have howner : ((g'.symbol (home' e.id)).owner.map fun o => (g'.symbol o).kind) =
        (g.symbol (home e.id)).owner.map fun o => (g.symbol o).kind := by
      rw [h.owner_eq he hk, h'.owner_eq he hk]
      cases hw : e.owner with
      | none => rfl
      | some w =>
        obtain ⟨o, ho, rfl⟩ := h.exists_owner he hw
        simp only [Option.map_some, (h.declares o ho).kind, (h'.declares o ho).kind]
    rw [target?, target?, hd.kind, hd'.kind, (hd.own hj).2.1, (hd'.own hj).2.1, howner]

/-! ## Reports -/

/-- What is reported of an entry, and how it counts. -/
theorem entry_eq (hu : Unambiguous es) (he : e ∈ es) :
    (g'.entry (home' e.id)).json = (g.entry (home e.id)).json ∧
      (g'.entry (home' e.id)).verdict.nullability? =
        (g.entry (home e.id)).verdict.nullability? :=
  (h.corresponds h' hu).entry (.entry he) (h.owners_paired h' he) (h.target?_eq h' he)

end Two

/-- The symbols that are reported are those of methods and variables among the entries. What
is supplied is not reported. -/
theorem reported_perm (h : g.Settled home es n) (hd : es.Nodup) :
    g.reported.Perm ((es.filter (·.isReported)).map (home ·.id)) :=
  reported_perm_of hd h.declares (fun e he _ o ho => h.eq_of_home_eq e he o ho) h.initial
    fun i hi hlt => (h.supply i hi hlt).undeclared

/-- Whatever is read of reports and settled for each entry is the same up to order. -/
theorem entries_perm {β : Type} (view : ReportEntry → β) (h : g.Settled home es n)
    (h' : g'.Settled home' es n') (hd : es.Nodup)
    (hview : ∀ e ∈ es, view (g'.entry (home' e.id)) = view (g.entry (home e.id))) :
    (g.report.entries.map view).Perm (g'.report.entries.map view) := by
  have hg := (h.reported_perm hd).map fun i => view (g.entry i)
  have hg' := (h'.reported_perm hd).map fun i => view (g'.entry i)
  rw [List.map_map] at hg hg'
  have hsame : (es.filter (·.isReported)).map (fun e => view (g'.entry (home' e.id))) =
      (es.filter (·.isReported)).map fun e => view (g.entry (home e.id)) :=
    List.map_congr_left fun e he => hview e (List.mem_of_mem_filter he)
  show ((g.reported.map g.entry).map view).Perm ((g'.reported.map g'.entry).map view)
  rw [List.map_map, List.map_map]
  exact hg.trans ((List.Perm.of_eq hsame.symm).trans hg'.symm)

end Settled

/-- Each method and variable is reported alike by both graphs, and the reports are the same up
to their order. -/
structure SameReports (g g' : Graph) (home home' : String → SymbolId) (es : List SymbolEntry) :
    Prop where
  entry : ∀ e ∈ es, e.kind = .method ∨ e.kind = .var →
    (g'.entry (home' e.id)).json = (g.entry (home e.id)).json
  entries : (g.report.entries.map (·.json)).Perm (g'.report.entries.map (·.json))
  summary : g'.report.summary = g.report.summary

/-- **Order of entries.** Entries in another order are loaded as well. If no name is ambiguous,
then each method and variable has the same report: its name, kind and target, its type and
level, and the name and the site of the annotation that decided. Only the order of the reports
may differ. -/
theorem ofEntries_perm (h : Graph.ofEntries es = .ok g) (hn : DistinctNames es)
    (hp : es.Perm es') :
    ∃ g' home home' placed placed' n n', Graph.ofEntries es' = .ok g' ∧
      g.Hosts home es placed n ∧ g'.Hosts home' es' placed' n' ∧
      (Unambiguous es → g.SameReports g' home home' es) := by
  have ha := acceptable_of_ofEntries h
  have ha' := ha.of_perm hp
  obtain ⟨g', hload'⟩ := exists_of_acceptable ha'
  obtain ⟨home, placed, base, r, done, hl⟩ := exists_loaded h
  obtain ⟨home', placed', base', r', done', hl'⟩ := exists_loaded hload'
  refine ⟨g', home, home', placed, placed', base.size, base'.size, hload', hl.hosts ha,
    hl'.hosts ha', fun hu => ?_⟩
  have hs := hl.settled ha hn
  have hs' := (hl'.settled ha' (hn.of_perm hp)).of_same hp.symm.subset hp.subset
  have hd : es.Nodup := ha.distinct.of_map _
  refine ⟨fun e he _ => (hs.entry_eq hs' hu he).1, ?_, ?_⟩
  · exact hs.entries_perm _ hs' hd fun e he => (hs.entry_eq hs' hu he).1
  · exact (Summary.ofEntries_eq_of_perm
      (hs.entries_perm (·.verdict.nullability?) hs' hd fun e he => (hs.entry_eq hs' hu he).2)).symm

/-- The annotation of `p.C.g` mentions a constant of an enum within its own type, for which
there is no entry. -/
def nestedEnum : List SymbolEntry := missingType "q.Config.Kind.A"

theorem hasType_nestedEnum {q : String} {u : Bool} (h : HasType nestedEnum q u) :
    q ∈ ["q.Config", "p.Missing", "javax.annotation.CheckForNull"] := by
  have hmem : (q, u) ∈
      [("q.Config", false), ("p.Missing", false), ("javax.annotation.CheckForNull", false)] :=
    hasType_iff.mp h
  exact List.mem_map_of_mem (f := Prod.fst) hmem

theorem hasConstant_nestedEnum {k : String} (h : HasConstant nestedEnum k) :
    k = "q.Config.Kind.A" := by
  obtain ⟨m, hm, rfl⟩ := hasConstant_iff.mp h
  have hmem : m ∈ [(["kind"], "q.Config.Kind.A")] := hm
  rw [List.mem_singleton.mp hmem]

theorem hasEnum_nestedEnum {q : String} (h : HasEnum nestedEnum q) : q = "q.Config.Kind" := by
  obtain ⟨c, last, hc, hsplit⟩ := h
  have hself : Registry.splitLastDot "q.Config.Kind.A" = some ("q.Config.Kind", "A") := by cbv
  rw [hasConstant_nestedEnum hc, hself] at hsplit
  cases hsplit
  rfl

theorem refersWithin_nestedEnum {around : List String} {q : String}
    (h : RefersWithin nestedEnum around q) :
    (q ∈ ["q.Config", "p.Missing", "javax.annotation.CheckForNull"]) ∨
      (around = ["q.Config"] ∧ q = "q.Config.Kind") := by
  rcases h with ht | ⟨c, last, hc, hsplit⟩
  · exact .inl (hasType_nestedEnum ht.hasType)
  · refine .inr ⟨?_, hasEnum_nestedEnum ⟨c, last, hc.hasConstant, hsplit⟩⟩
    have hmem : (around, Reference.constant c) ∈
        [([], .type "q.Config" false), (["q.Config"], .constant "q.Config.Kind.A"),
          ([], .type "p.Missing" false), ([], .type "javax.annotation.CheckForNull" false)] :=
      occurs_iff.mp hc
    simp only [List.mem_cons, Prod.mk.injEq, reduceCtorEq, and_false, List.not_mem_nil, or_false,
      false_or] at hmem
    exact hmem.1

/-- What is supplied around the types are the packages `q`, `p` and `javax.annotation`, and the
enum is supplied within its class. -/
theorem unambiguous_nestedEnum : Unambiguous nestedEnum := by
  have hnames : ∀ e ∈ nestedEnum, ∀ q, Named nestedEnum e q →
      q ∈ ["p", "p.Missing", "p.C", "p.C.g", "p.C.f"] :=
    fun e he q hq => mem_of_forall₂ (nodup_missingType _) (named_missingType _) he hq
  refine ⟨fun c hc _ _ q hq henum => ?_, fun q hq _ k hw => ?_⟩
  · have hname := hnames c hc q hq
    rw [hasEnum_nestedEnum henum] at hname
    exact absurd hname (by decide)
  · have htypes := hasType_nestedEnum hq
    cases hw with
    | cls _ _ => rfl
    | var hc =>
      rw [hasConstant_nestedEnum hc] at htypes
      exact absurd htypes (by decide)
    | @pkg around q₁ outer name hr _ hsplit _ hhas =>
      rcases refersWithin_nestedEnum hr with hq₁ | ⟨rfl, rfl⟩
      · have houter : ∀ q₁ ∈ ["q.Config", "p.Missing", "javax.annotation.CheckForNull"],
            ∀ parts ∈ Registry.splitLastDot q₁,
              parts.1 ∉ ["q.Config", "p.Missing", "javax.annotation.CheckForNull"] := by decide
        exact absurd htypes (houter q₁ hq₁ _ hsplit)
      · have hself : Registry.splitLastDot "q.Config.Kind" = some ("q.Config", "Kind") := by cbv
        rw [hself] at hsplit
        cases hsplit
        -- neither an entry nor a constant has the name of the enclosing class
        rcases hhas List.mem_cons_self with ⟨e, he, hname⟩ | hc
        · exact absurd (hnames e he _ hname) (by decide)
        · exact absurd (hasConstant_nestedEnum hc) (by decide)

theorem sameReports_nestedEnum :
    ∃ (g g' : Graph) (home home' : String → SymbolId) (placed placed' : List SymbolEntry)
      (n n' : Nat), Graph.ofEntries nestedEnum = .ok g ∧
        Graph.ofEntries nestedEnum.reverse = .ok g' ∧
        g.Hosts home nestedEnum placed n ∧ g'.Hosts home' nestedEnum.reverse placed' n' ∧
        g.SameReports g' home home' nestedEnum := by
  obtain ⟨g, h⟩ := exists_of_isSome nestedEnum (by cbv)
  obtain ⟨g', home, home', placed, placed', n, n', h', hosts, hosts', reports⟩ := ofEntries_perm h
    (distinctNames_missingType _) (List.reverse_perm nestedEnum).symm
  exact ⟨g, g', home, home', placed, placed', n, n', h, h', hosts, hosts',
    reports unambiguous_nestedEnum⟩

/-! ## What the order decides -/

theorem word_of_json_eq {x y : ReportEntry} (h : x.json = y.json) :
    x.verdict.word = y.verdict.word := by
  have hfields := Json.obj.inj h
  -- what is behind an optional target moves by one place
  cases hx : x.target <;> cases hy : y.target <;>
    simp [hx, hy] at hfields <;> simp [hfields]

/-- Whatever has this name is reported with this word. -/
def reportsAs (g : Graph) (name word : String) : Bool :=
  (List.range g.size).all fun i =>
    (g.symbol i).qualifiedName != name || (g.entry i).verdict.word == word

theorem word_of_reportsAs {name word : String} (h : g.reportsAs name word = true) {i : SymbolId}
    (hi : i < g.size) (hname : (g.symbol i).qualifiedName = name) :
    (g.entry i).verdict.word = word := by
  have hself := List.all_eq_true.mp h i (List.mem_range.mpr hi)
  rw [hname] at hself
  simpa using hself

/-- Entries that are reported with different words in two orders. -/
theorem exists_not_sameReports (word word' : String) {name : String} (hp : es.Perm es')
    (he : e ∈ es) (hk : e.kind = .method ∨ e.kind = .var) (hq : Named es e name)
    (hw : (Graph.ofEntries es).toOption.any (·.reportsAs name word) = true)
    (hw' : (Graph.ofEntries es').toOption.all (·.reportsAs name word') = true)
    (hne : word ≠ word') :
    ∃ g, Graph.ofEntries es = .ok g ∧
      ¬ ∃ g' home home' placed placed' n n', Graph.ofEntries es' = .ok g' ∧
        g.Hosts home es placed n ∧ g'.Hosts home' es' placed' n' ∧
        g.SameReports g' home home' es := by
  cases h : Graph.ofEntries es with
  | error err =>
    rw [h] at hw
    cases hw
  | ok g =>
    rw [h] at hw
    refine ⟨g, rfl, ?_⟩
    rintro ⟨g', home, home', placed, placed', n, n', h', hhosts, hhosts', hsame⟩
    rw [h'] at hw'
    have he' := hp.mem_iff.mp he
    have hword := word_of_json_eq (hsame.entry e he hk)
    rw [word_of_reportsAs hw (hhosts.declares e he).lt
        (qualifiedName_of_named hhosts.declares he hq),
      word_of_reportsAs hw' (hhosts'.declares e he').lt
        (qualifiedName_of_named hhosts'.declares he' (hq.of_subset hp.subset))] at hword
    exact hne hword.symm

/-- The order decides where an unknown entry is overlooked: the field `p.C.f` is strongly
nullable if the constant `p.Missing.A` comes first, and unknown otherwise. -/
theorem order_decides_overlooked :
    ¬ ∀ (es es' : List SymbolEntry) (g : Graph), Graph.ofEntries es = .ok g → DistinctNames es →
      es.Perm es' → ∃ g' home home' placed placed' n n', Graph.ofEntries es' = .ok g' ∧
        g.Hosts home es placed n ∧ g'.Hosts home' es' placed' n' ∧
        g.SameReports g' home home' es := by
  intro hclaim
  have hp : (missingType "p.Missing.A").Perm
      [package, missing, holder, suspect, configured "p.Missing.A"] :=
    List.Perm.append_left [package, missing, holder] (List.Perm.swap _ _ _)
  have hf : suspect ∈ missingType "p.Missing.A" := by simp [missingType]
  obtain ⟨g, h, hnot⟩ := exists_not_sameReports "STRONG_NULLABLE" "UNKNOWN" hp hf
    (Or.inr rfl) (named_suspect _) (by cbv) (by cbv) (by decide)
  exact hnot (hclaim _ _ g h (distinctNames_missingType _) hp)

/-- A class that stands for an annotation of the type `javax.annotation.Nonnull`. -/
def standIn (name : String) (as : List ArgumentEntry) : SymbolEntry :=
  { id := name, kind := .cls, name, owner := some "p",
    annotations := [⟨"javax.annotation.Nonnull", false, as⟩] }

/-- A field with annotations that have no arguments. -/
def plain (name : String) (types : List String) : SymbolEntry :=
  { id := name, kind := .var, name, owner := some "C",
    annotations := types.map fun type => ⟨type, false, []⟩ }

def standIns : List SymbolEntry :=
  [ package, holder, standIn "A" [],
    standIn "B" [⟨"when", .constant "javax.annotation.meta.When.MAYBE"⟩],
    plain "f" ["p.A", "p.B"], plain "g" ["javax.annotation.Nonnull.X"] ]

theorem named_plain {es : List SymbolEntry} (hp : package ∈ es) (hC : holder ∈ es)
    (name : String) (types : List String) :
    Named es (plain name types) ("p.C" ++ "." ++ name) :=
  .owned ⟨hC, rfl⟩ (named_holder hp)

theorem distinctNames_standIns : DistinctNames standIns := by
  have hp : package ∈ standIns := by simp [standIns]
  have hC : holder ∈ standIns := by simp [standIns]
  have hclass : ∀ name as, Named standIns (standIn name as) ("p" ++ "." ++ name) :=
    fun _ _ => .owned ⟨hp, rfl⟩ (.root rfl)
  refine distinctNames_of_forall₂ (by decide)
    (.cons (.root rfl) (.cons (named_holder hp) (.cons (hclass _ _) (.cons (hclass _ _)
      (.cons (named_plain hp hC _ _) (.cons (named_plain hp hC _ _) .nil)))))) (by decide)

/-- The order decides even where nothing is unknown: if `javax.annotation.Nonnull.X` comes
first, its package takes the name of `javax.annotation.Nonnull`, and each annotation of that
type is supplied with a class of its own. So the second one, which is strongly nullable, is not
passed over as a repetition of the first. -/
theorem order_decides_supplied :
    ¬ ∀ (es es' : List SymbolEntry) (g : Graph), Graph.ofEntries es = .ok g → DistinctNames es →
      (∀ e ∈ es, e.isUnknown = false) → es.Perm es' →
      ∃ g' home home' placed placed' n n', Graph.ofEntries es' = .ok g' ∧
        g.Hosts home es placed n ∧ g'.Hosts home' es' placed' n' ∧
        g.SameReports g' home home' es := by
  intro hclaim
  have hp : standIns.Perm standIns.reverse := (List.reverse_perm _).symm
  have hf : plain "f" ["p.A", "p.B"] ∈ standIns := by simp [standIns]
  have hq : Named standIns (plain "f" ["p.A", "p.B"]) ("p.C" ++ "." ++ "f") :=
    named_plain (by simp [standIns]) (by simp [standIns]) _ _
  obtain ⟨g, h, hnot⟩ := exists_not_sameReports "NON_NULL" "STRONG_NULLABLE" hp hf
    (Or.inr rfl) hq (by cbv) (by cbv) (by decide)
  exact hnot (hclaim _ _ g h distinctNames_standIns (by decide) hp)

end Graph

end Nullness
