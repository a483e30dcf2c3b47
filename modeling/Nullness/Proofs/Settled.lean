import Nullness.Proofs.Correspondence
import Nullness.Proofs.Sharing
import Nullness.Proofs.Types

/-!
# What the entries settle about a graph

Of a loaded graph all that reports read is settled by the entries, whatever their order: what
their symbols are, what their annotations say, and which of these share a type. So two graphs
that are settled by the same entries correspond.

What an entry settles may depend on the order only where a name is ambiguous: an enum constant
overlooks an unknown entry, or a package or a constant is supplied under the name of a type.

- `Document.Unambiguous`: no name is.
- `Graph.Settled`: what entries settle, and `Graph.Loaded.settled`.
- `Graph.Foreign`: types that belong to no entry.
- `Graph.Settled.corresponds`: settled graphs correspond.
-/

namespace Nullness

namespace Document

variable {es es' : List SymbolEntry} {e : SymbolEntry} {q : String}

/-! ## Entries in another order -/

theorem Named.of_subset (hs : es ⊆ es') (h : Named es e q) : Named es' e q := by
  induction h with
  | root hn => exact .root hn
  | owned ho _ ih => exact .owned ⟨hs ho.1, ho.2⟩ ih

theorem HasType.of_subset (hs : es ⊆ es') {u : Bool} (h : HasType es q u) : HasType es' q u := by
  obtain ⟨e, he, a, ha, hq⟩ := h
  exact ⟨e, hs he, a, ha, hq⟩

theorem HasConstant.of_subset (hs : es ⊆ es') (h : HasConstant es q) : HasConstant es' q := by
  obtain ⟨e, he, a, ha, m, hm, hq⟩ := h
  exact ⟨e, hs he, a, ha, m, hm, hq⟩

theorem HasEnum.of_subset (hs : es ⊆ es') (h : HasEnum es q) : HasEnum es' q := by
  obtain ⟨c, last, hc, hsplit⟩ := h
  exact ⟨c, last, hc.of_subset hs, hsplit⟩

theorem Refers.of_subset (hs : es ⊆ es') (h : Refers es q) : Refers es' q :=
  h.imp (HasType.of_subset hs) (HasEnum.of_subset hs)

theorem Occurs.of_subset (hs : es ⊆ es') {around : List String} {x : Reference}
    (h : Occurs es around x) : Occurs es' around x := by
  obtain ⟨e, he, a, ha, hm⟩ := h
  exact ⟨e, hs he, a, ha, hm⟩

theorem RefersWithin.of_subset (hs : es ⊆ es') {around : List String}
    (h : RefersWithin es around q) : RefersWithin es' around q := by
  rcases h with ht | ⟨c, last, hc, hsplit⟩
  · exact .inl (ht.of_subset hs)
  · exact .inr ⟨c, last, hc.of_subset hs, hsplit⟩

theorem Wanted.of_same (hs : es ⊆ es') (hs' : es' ⊆ es) {k : Kind} (h : Wanted es k q) :
    Wanted es' k q := by
  induction h with
  | cls hq hover =>
    refine .cls (hq.of_subset hs) fun c hc hk hcq => ?_
    obtain ⟨hu, henum⟩ := hover c (hs' hc) hk (hcq.of_subset hs')
    exact ⟨hu, henum.of_subset hs⟩
  | pkg hr _ hsplit hunknown hhas ih =>
    refine .pkg (hr.of_subset hs) ih hsplit
      (fun c hc hk hcq => hunknown c (hs' hc) hk (hcq.of_subset hs')) fun haround => ?_
    rcases hhas haround with ⟨e, he, hq⟩ | hc
    · exact .inl ⟨e, hs he, hq.of_subset hs⟩
    · exact .inr (hc.of_subset hs)
  | var hc => exact .var (hc.of_subset hs)

theorem Clear.of_same (hs : es ⊆ es') (hs' : es' ⊆ es) (h : Clear es q) : Clear es' q :=
  ⟨fun e he hq => h.1 e (hs' he) (hq.of_subset hs'), fun k hk => h.2 k (hk.of_same hs' hs)⟩

/-- No enum constant overlooks an unknown class entry, and nothing but a class is supplied
under the name of a type, if neither a class entry nor a known one has that name. The type may
well enclose others that its own annotations refer to. -/
structure Unambiguous (es : List SymbolEntry) : Prop where
  unknown : ∀ c ∈ es, c.kind = .cls → c.isUnknown = true → ∀ q, Named es c q → ¬ HasEnum es q
  supplied : ∀ q, HasType es q false →
    (∀ e ∈ es, Named es e q → e.kind ≠ .cls ∧ e.isUnknown = true) →
    ∀ k, Wanted es k q → k = .cls

/-- Each annotation has such a type for itself: it is marked unresolved, or the name is that of
a known entry and leads there. -/
def Private (es : List SymbolEntry) (q : String) (isUnresolved : Bool) : Prop :=
  isUnresolved = true ∨ ∃ e ∈ es, e.isUnknown = false ∧ Named es e q

end Document

open Document

namespace Graph

variable {es es' : List SymbolEntry} {g g' : Graph} {home home' : String → SymbolId} {n n' : Nat}
variable {e o : SymbolEntry} {q : String} {i : SymbolId} {u : Bool}

theorem TypeFor.of_same (hs : es ⊆ es') (hs' : es' ⊆ es) (h : g.TypeFor home es n q u i) :
    g.TypeFor home es' n q u i := by
  refine ⟨h.names, h.unresolved, fun hu c hc hk hcq => ?_, fun hu hnone => ?_⟩
  · refine (h.declared hu c (hs' hc) hk (hcq.of_subset hs')).imp_right ?_
    rintro ⟨hcu, henum, hknown, hge⟩
    exact ⟨hcu, henum.of_subset hs, hknown, hge⟩
  · obtain ⟨hknown, hge, hfind⟩ :=
      h.undeclared hu fun c hc hk hcq => hnone c (hs hc) hk (hcq.of_subset hs)
    exact ⟨hknown, hge, fun hclear => hfind (hclear.of_same hs' hs)⟩

/-- The name of a class entry stands for that entry. -/
theorem TypeFor.eq_home (ht : g.TypeFor home es n q false i) (hu : Unambiguous es)
    {c : SymbolEntry} (hc : c ∈ es) (hk : c.kind = .cls) (hq : Named es c q) : i = home c.id := by
  rcases ht.declared rfl c hc hk hq with hi | ⟨hcu, henum, -⟩
  · exact hi
  · exact absurd henum (hu.unknown c hc hk hcu q hq)

theorem ConstantFor.of_same (hs' : es' ⊆ es) {c : String} (h : g.ConstantFor home es c i) :
    g.ConstantFor home es' c i :=
  ⟨h.qualified, h.knows, fun e he hk hu hq => h.declared e (hs' he) hk hu (hq.of_subset hs')⟩

/-- A class that the name of a type stands for and that belongs to no entry. The name leads to
it, unless each annotation has such a type for itself. -/
structure Foreign (g : Graph) (es : List SymbolEntry) (n : Nat) (q : String) (isUnresolved : Bool)
    (i : SymbolId) : Prop where
  names : g.NamesClass q i
  outside : n ≤ i
  isUnknown : (g.symbol i).isUnknown = isUnresolved
  shared : ¬ Private es q isUnresolved → g.find? q = some i
  own : Private es q isUnresolved → ¬ g.Listed i

/-! ## What entries settle -/

/-- What entries settle about a graph. The first `n` symbols belong to entries. -/
structure Settled (g : Graph) (home : String → SymbolId) (es : List SymbolEntry) (n : Nat) :
    Prop where
  sound : g.Sound
  named : ∀ e ∈ es, ∃ q, Named es e q
  declares : ∀ e ∈ es, g.Declares home e
  eq_of_home_eq : ∀ e ∈ es, ∀ o ∈ es, home o.id = home e.id → o = e
  initial : ∀ i, i < n ↔ ∃ e ∈ es, home e.id = i
  find? : ∀ e ∈ es, ∀ q, Named es e q → e.isUnknown = false → g.find? q = some (home e.id)
  known : ∀ q i, g.find? q = some i → (g.symbol i).isUnknown = false
  annotations : ∀ e ∈ es, List.Forall₂ (AnnotationEntry.Means (g.byEntry home es n)) e.annotations
    (g.annotations (home e.id))
  site : ∀ e ∈ es, (g.symbol (home e.id)).site = e.site
  bare : ∀ i, n ≤ i → g.annotations i = [] ∧ (g.symbol i).site = none
  supply : ∀ i, n ≤ i → i < g.size → (g.symbol i).IsSupply (Wanted es)
  usedOnce : g.UsedOnce

/-- The order of the entries does not matter. -/
theorem Settled.of_same (hs : es ⊆ es') (hs' : es' ⊆ es) (h : g.Settled home es n) :
    g.Settled home es' n where
  sound := h.sound
  named e he := by
    obtain ⟨q, hq⟩ := h.named e (hs' he)
    exact ⟨q, hq.of_subset hs⟩
  declares e he := h.declares e (hs' he)
  eq_of_home_eq e he o ho := h.eq_of_home_eq e (hs' he) o (hs' ho)
  initial i := (h.initial i).trans
    ⟨fun ⟨e, he, hi⟩ => ⟨e, hs he, hi⟩, fun ⟨e, he, hi⟩ => ⟨e, hs' he, hi⟩⟩
  find? e he q hq := h.find? e (hs' he) q (hq.of_subset hs')
  known := h.known
  annotations e he := (h.annotations e (hs' he)).imp fun _ _ hab =>
    hab.mono (fun _ _ _ => TypeFor.of_same hs hs') fun _ _ => ConstantFor.of_same hs'
  site e he := h.site e (hs' he)
  bare := h.bare
  supply i hi hlt := by
    have hsupply := h.supply i hi hlt
    exact ⟨hsupply.undeclared, fun hu => (hsupply.wanted hu).of_same hs hs', hsupply.name⟩
  usedOnce := h.usedOnce

/-- Entries with distinct names settle the graph that they load. -/
theorem Loaded.settled {placed : List SymbolEntry} {base r : Registry}
    {done : Registry.Declared} (h : Loaded es g home placed base r done) (ha : Acceptable es)
    (hn : DistinctNames es) : g.Settled home es base.size := by
  have hd := h.described_byEntry ha hn
  have hbuilt : g.Built := ⟨r, h.reachable, h.graph⟩
  have hnone : ∀ i, base.annotations i = [] := fun i =>
    (h.placed.grown.annotations i).trans (Graph.annotations_of_le _ (Nat.zero_le i))
  have hdone : ∀ e ∈ es, ∀ id, done.lookup e.id = some id → id < base.size := by
    intro e he id hid
    rw [h.placed.found e (h.mem_placed he), Option.some_inj] at hid
    exact hid ▸ (h.declares_base e he).lt
  exact {
    sound := hbuilt.sound
    named := fun e he => (ha.rooted e he).exists_named
    declares := fun e he => h.declares he
    eq_of_home_eq := fun e he o ho => h.eq_of_home_eq ha hn he ho
    initial := (h.hosts ha).initial
    find? := fun e he q hq hu => by
      rw [← h.graph]
      exact h.placed.reachable.exact.find?_mono hd.invariant.supplied.exact hd.keeps
        (h.find?_of_named ha hn he hq hu)
    known := fun q i hi => by
      rw [← h.graph] at hi ⊢
      exact (h.reachable.exact.knows_of_find? hi).known
    annotations := fun e he => h.annotations_byEntry ha hn he
    site := fun e he => by
      rw [h.site, h.filter_home_eq ha hn he]
      cases hs : e.site <;> simp [hs]
    bare := fun i hi => ⟨h.annotations_of_le hi, h.site_of_le hi⟩
    supply := fun i hi hlt => by
      rw [← h.graph] at hlt ⊢
      exact hd.invariant.supplied.supply i hi hlt
    usedOnce := by
      rw [← h.graph]
      exact Registry.usedOnce_describeAll h.placed.reachable hnone hdone h.described }

namespace Settled

/-! ## Names and types -/

theorem qualifiedName (h : g.Settled home es n) (he : e ∈ es) (hq : Named es e q) :
    (g.symbol (home e.id)).qualifiedName = q :=
  qualifiedName_of_named h.declares he hq

theorem home_lt (h : g.Settled home es n) (he : e ∈ es) : home e.id < n :=
  (h.initial _).mpr ⟨e, he, rfl⟩

/-- A symbol below `n` is that of an entry of its name. -/
theorem exists_named (h : g.Settled home es n) (hi : i < n) :
    ∃ e ∈ es, home e.id = i ∧ Named es e (g.symbol i).qualifiedName := by
  obtain ⟨e, he, rfl⟩ := (h.initial i).mp hi
  obtain ⟨q, hq⟩ := h.named e he
  rw [h.qualifiedName he hq]
  exact ⟨e, he, rfl, hq⟩

/-- A type that is marked unresolved was added for one annotation. -/
theorem foreign_of_unresolved (h : g.Settled home es n) (ht : g.TypeFor home es n q true i) :
    g.Foreign es n q true i := by
  obtain ⟨hunknown, hge⟩ := ht.unresolved rfl
  refine ⟨ht.names, hge, hunknown, fun hp => absurd (Or.inl rfl) hp, fun _ hl => ?_⟩
  rcases hl with hfind | hmissing
  · rw [h.known _ i hfind] at hunknown
    cases hunknown
  · -- it was not declared unknown, since what is supplied is no declaration
    have hsupply := (h.supply i hge ht.names.lt).undeclared
    rw [ht.names.kind, (Symbol.isMissingAs_iff.mp hmissing).2.1] at hsupply
    exact absurd hsupply (by decide)

/-- A type for which there is no class entry is a class that was supplied. -/
theorem foreign_of_undeclared (h : g.Settled home es n) (hu : Unambiguous es)
    (ht : g.TypeFor home es n q false i) (hq : HasType es q false)
    (hnone : ∀ c ∈ es, c.kind = .cls → ¬ Named es c q) : g.Foreign es n q false i := by
  obtain ⟨hknown, hge, hfind⟩ := ht.undeclared rfl hnone
  refine ⟨ht.names, hge, hknown, fun hp => hfind ?_, fun hp hl => ?_⟩
  · have hunknown : ∀ e ∈ es, Named es e q → e.isUnknown = true := fun e he heq => by
      by_contra hne
      exact hp (Or.inr ⟨e, he, Bool.eq_false_iff.mpr hne, heq⟩)
    exact ⟨hunknown, hu.supplied q hq fun e he heq =>
      ⟨fun hk => hnone e he hk heq, hunknown e he heq⟩⟩
  · obtain ⟨e, he, heu, heq⟩ := hp.resolve_left (by decide)
    rcases hl with hfind' | hmissing
    · -- the name leads to the symbol of the known entry
      rw [ht.names.name, h.find? e he q heq heu, Option.some_inj] at hfind'
      exact absurd (hfind' ▸ h.home_lt he) (Nat.not_lt.mpr hge)
    · rw [(Symbol.isMissingAs_iff.mp hmissing).1] at hknown
      cases hknown

/-- An enum constant has the name of the entry that declares it, or else what stands behind
its last dot. -/
theorem name_constant (h : g.Settled home es n) {c : String} (hc : g.ConstantFor home es c i) :
    (∃ e ∈ es, e.kind = .var ∧ e.isUnknown = false ∧ Named es e c ∧ (g.symbol i).name = e.name) ∨
      ((∀ e ∈ es, e.kind = .var → e.isUnknown = false → ¬ Named es e c) ∧
        ∃ front, Registry.splitLastDot c = some (front, (g.symbol i).name)) := by
  by_cases he : ∃ e ∈ es, e.kind = .var ∧ e.isUnknown = false ∧ Named es e c
  · obtain ⟨e, he, hk, hu, hq⟩ := he
    have hj : ¬ e.Joinable := fun hj => by
      rw [hj.1] at hk
      cases hk
    refine Or.inl ⟨e, he, hk, hu, hq, ?_⟩
    rw [hc.declared e he hk hu hq]
    exact ((h.declares e he).own hj).1
  · have hnone : ∀ e ∈ es, e.kind = .var → e.isUnknown = false → ¬ Named es e c :=
      fun e he' hk hu hq => he ⟨e, he', hk, hu, hq⟩
    obtain ⟨⟨front, last⟩, hsplit⟩ := hc.qualified
    have hge : n ≤ i := by
      by_contra hlt
      obtain ⟨e, he, rfl, hq⟩ := h.exists_named (Nat.lt_of_not_le hlt)
      rw [hc.knows.name] at hq
      exact hnone e he ((h.declares e he).kind.symm.trans hc.knows.kind)
        ((h.declares e he).isUnknown.symm.trans hc.knows.known) hq
    have hname := (h.supply i hge hc.knows.lt).name hc.knows.known
      (by rw [hc.knows.kind]; decide) front last (by rw [hc.knows.name]; exact hsplit)
    exact Or.inr ⟨hnone, front, by rw [hname]; exact hsplit⟩

/-- An enum constant has one name in all graphs that are settled by the same entries. -/
theorem name_eq (h : g.Settled home es n) (h' : g'.Settled home' es n') {c : String}
    {i' : SymbolId} (hc : g.ConstantFor home es c i) (hc' : g'.ConstantFor home' es c i') :
    (g'.symbol i').name = (g.symbol i).name := by
  rcases h.name_constant hc with ⟨e, he, hk, hu, hq, hname⟩ | ⟨hnone, front, hsplit⟩ <;>
    rcases h'.name_constant hc' with ⟨o, ho, hk', hu', hq', hname'⟩ | ⟨hnone', front', hsplit'⟩
  · have hfind := h.find? e he c hq hu
    rw [h.find? o ho c hq' hu', Option.some_inj] at hfind
    rw [hname, hname', h.eq_of_home_eq e he o ho hfind]
  · exact absurd hq (hnone' e he hk hu)
  · exact absurd hq' (hnone o ho hk' hu')
  · rw [hsplit, Option.some_inj, Prod.mk.injEq] at hsplit'
    exact hsplit'.2.symm

end Settled

end Graph

/-! ## Two readings of one entry -/

section Readings
variable {R R' : Reading} {g g' : Graph}

mutual

theorem matches_of_means
    (hc : ∀ c i i', R.constant c i → R'.constant c i' → (g'.symbol i').name = (g.symbol i).name)
    {v : ValueEntry} {w w' : Value} (h : v.Means R w) (h' : v.Means R' w') :
    w.Matches g g' w' := by
  cases h with
  | scalar s =>
    cases h' with
    | scalar _ => exact .scalar s
  | constant hi =>
    cases h' with
    | constant hi' => exact .symbol (hc _ _ _ hi hi')
  | nested _ =>
    cases h' with
    | nested _ => exact .nested _ _
  | list hvs =>
    cases h' with
    | list hvs' => exact .list (allMatch_of_allMean hc hvs hvs')

theorem allMatch_of_allMean
    (hc : ∀ c i i', R.constant c i → R'.constant c i' → (g'.symbol i').name = (g.symbol i).name)
    {vs : List ValueEntry} {ws ws' : List Value} (h : ValueEntry.AllMean R vs ws)
    (h' : ValueEntry.AllMean R' vs ws') : Value.AllMatch g g' ws ws' := by
  cases h with
  | nil =>
    cases h' with
    | nil => exact .nil
  | cons hv hvs =>
    cases h' with
    | cons hv' hvs' => exact .cons (matches_of_means hc hv hv') (allMatch_of_allMean hc hvs hvs')

end

theorem arguments_matches_of_allMean
    (hc : ∀ c i i', R.constant c i → R'.constant c i' → (g'.symbol i').name = (g.symbol i).name)
    {as : List ArgumentEntry} {bs bs' : List Argument} (h : ArgumentEntry.AllMean R as bs)
    (h' : ArgumentEntry.AllMean R' as bs') : List.Forall₂ (Argument.Matches g g') bs bs' := by
  induction as generalizing bs bs' with
  | nil =>
    cases h
    cases h'
    exact .nil
  | cons a as ih =>
    cases h with
    | cons hv has =>
      cases h' with
      | cons hv' has' => exact .cons ⟨rfl, matches_of_means hc hv hv'⟩ (ih has has')

theorem exists_of_forall₂_getElem? {α β : Type} {r : α → β → Prop} {as : List α} {bs : List β}
    (h : List.Forall₂ r as bs) {k : Nat} {b : β} (hb : bs[k]? = some b) :
    ∃ a, as[k]? = some a ∧ r a b := by
  obtain ⟨hk, rfl⟩ := List.getElem?_eq_some_iff.mp hb
  have hk' : k < as.length := h.length_eq ▸ hk
  exact ⟨as[k], List.getElem?_eq_getElem hk', h.get hk' hk⟩

end Readings

namespace Graph

variable {es : List SymbolEntry} {g g' : Graph} {home home' : String → SymbolId} {n n' : Nat}
variable {i i' j j' : SymbolId}

/-! ## Settled graphs correspond -/

/-- Symbols of one entry in two graphs, and types of one annotation of an entry. -/
inductive Paired (g g' : Graph) (home home' : String → SymbolId) (es : List SymbolEntry) :
    SymbolId → SymbolId → Prop
  | entry {e : SymbolEntry} : e ∈ es → Paired g g' home home' es (home e.id) (home' e.id)
  | type {e : SymbolEntry} {k : Nat} {a a' : Annotation} : e ∈ es →
      (g.annotations (home e.id))[k]? = some a → (g'.annotations (home' e.id))[k]? = some a' →
      Paired g g' home home' es a.type a'.type

theorem Paired.symm (h : Paired g g' home home' es i i') : Paired g' g home' home es i' i := by
  cases h with
  | entry he => exact .entry he
  | type he ha ha' => exact .type he ha' ha

namespace Settled

section Two
variable (h : g.Settled home es n) (h' : g'.Settled home' es n')
include h h'

/-- Annotations at one place are read from one entry. -/
theorem means_of_getElem? {e : SymbolEntry} {k : Nat} {a a' : Annotation} (he : e ∈ es)
    (ha : (g.annotations (home e.id))[k]? = some a)
    (ha' : (g'.annotations (home' e.id))[k]? = some a') :
    ∃ x ∈ e.annotations, x.Means (g.byEntry home es n) a ∧ x.Means (g'.byEntry home' es n') a' := by
  obtain ⟨x, hx, hxa⟩ := exists_of_forall₂_getElem? (h.annotations e he) ha
  obtain ⟨x', hx', hxa'⟩ := exists_of_forall₂_getElem? (h'.annotations e he) ha'
  rw [hx] at hx'
  cases hx'
  exact ⟨x, List.mem_of_getElem? hx, hxa, hxa'⟩

/-- Related symbols are those of one entry, or they stand for one name and belong to no entry. -/
theorem paired_cases (hu : Unambiguous es) (hi : Paired g g' home home' es i i') :
    (∃ c ∈ es, i = home c.id ∧ i' = home' c.id) ∨
      ∃ q u, g.Foreign es n q u i ∧ g'.Foreign es n' q u i' := by
  cases hi with
  | entry he => exact Or.inl ⟨_, he, rfl, rfl⟩
  | @type e k a a' he ha ha' =>
    obtain ⟨⟨q, u, as⟩, hx, hxa, hxa'⟩ := h.means_of_getElem? h' he ha ha'
    have ht : g.TypeFor home es n q u a.type := hxa.type
    have ht' : g'.TypeFor home' es n' q u a'.type := hxa'.type
    have hq : HasType es q u := ⟨e, he, _, hx, AnnotationEntry.mem_types _⟩
    cases u with
    | true => exact Or.inr ⟨q, true, h.foreign_of_unresolved ht, h'.foreign_of_unresolved ht'⟩
    | false =>
      by_cases hc : ∃ c ∈ es, c.kind = .cls ∧ Named es c q
      · obtain ⟨c, hc, hk, hcq⟩ := hc
        exact Or.inl ⟨c, hc, ht.eq_home hu hc hk hcq, ht'.eq_home hu hc hk hcq⟩
      · have hnone : ∀ c ∈ es, c.kind = .cls → ¬ Named es c q :=
          fun c hc' hk hcq => hc ⟨c, hc', hk, hcq⟩
        exact Or.inr ⟨q, false, h.foreign_of_undeclared hu ht hq hnone,
          h'.foreign_of_undeclared hu ht' hq hnone⟩

omit h' in
/-- A type that belongs to no entry is paired with one type only: its name leads to that, or it
is the type of a single annotation. -/
theorem eq_of_foreign {q q₂ : String} {u u₂ : Bool} (hi : Paired g g' home home' es i i')
    (hj : Paired g g' home home' es j j') (hf : g.Foreign es n q u i)
    (hf' : g'.Foreign es n' q u i') (hf₂ : g.Foreign es n q₂ u₂ j)
    (hf₂' : g'.Foreign es n' q₂ u₂ j') (hij : i = j) : i' = j' := by
  have hqq : q₂ = q := by rw [← hf₂.names.name, ← hij, hf.names.name]
  have huu : u₂ = u := by rw [← hf₂.isUnknown, ← hij, hf.isUnknown]
  subst hqq huu
  by_cases hp : Private es q₂ u₂
  · cases hi with
    | entry he => exact absurd (h.home_lt he) (Nat.not_lt.mpr hf.outside)
    | @type e k a a' he ha ha' =>
      cases hj with
      | entry ho => exact absurd (h.home_lt ho) (Nat.not_lt.mpr hf₂.outside)
      | @type o l b b' ho hb hb' =>
        obtain ⟨hhome, hkl⟩ := (h.usedOnce _ _ _ _ a b ha hb hij).resolve_left (hf.own hp)
        have heo := h.eq_of_home_eq o ho e he hhome
        subst heo hkl
        rw [ha', Option.some_inj] at hb'
        rw [hb']
  · have hfind := hf'.shared hp
    rw [hf₂'.shared hp, Option.some_inj] at hfind
    exact hfind.symm

theorem eq_of_paired (hu : Unambiguous es) (hi : Paired g g' home home' es i i')
    (hj : Paired g g' home home' es j j') (hij : i = j) : i' = j' := by
  rcases h.paired_cases h' hu hi with ⟨c, hc, hic, hic'⟩ | ⟨q, u, hf, hf'⟩ <;>
    rcases h.paired_cases h' hu hj with ⟨o, ho, hjo, hjo'⟩ | ⟨q₂, u₂, hf₂, hf₂'⟩
  · rw [hic', hjo', h.eq_of_home_eq o ho c hc (by rw [← hic, ← hjo, hij])]
  · -- symbols of entries come first
    have hlt := h.home_lt hc
    rw [← hic, hij] at hlt
    exact absurd hlt (Nat.not_lt.mpr hf₂.outside)
  · have hlt := h.home_lt ho
    rw [← hjo, ← hij] at hlt
    exact absurd hlt (Nat.not_lt.mpr hf.outside)
  · exact h.eq_of_foreign hi hj hf hf' hf₂ hf₂' hij

/-- The annotations of an entry say the same in both graphs. -/
theorem annotations_matches {e : SymbolEntry} (he : e ∈ es) :
    Annotation.AllMatch g g' (Paired g g' home home' es)
      (g.annotations (home e.id)) (g'.annotations (home' e.id)) := by
  have hlen : (g.annotations (home e.id)).length = (g'.annotations (home' e.id)).length :=
    (h.annotations e he).length_eq.symm.trans (h'.annotations e he).length_eq
  refine List.forall₂_iff_get.mpr ⟨hlen, fun k hk hk' => ?_⟩
  have ha := List.getElem?_eq_getElem hk
  have ha' := List.getElem?_eq_getElem hk'
  obtain ⟨x, -, hxa, hxa'⟩ := h.means_of_getElem? h' he ha ha'
  exact ⟨.type he ha ha', arguments_matches_of_allMean (fun _ _ _ hc hc' => h.name_eq h' hc hc')
    hxa.arguments hxa'.arguments⟩

/-- **Correspondence.** Graphs that are settled by the same entries correspond, symbol of entry
by symbol of entry and type of annotation by type of annotation. -/
theorem corresponds (hu : Unambiguous es) :
    g.Corresponds g' (Paired g g' home home' es) where
  eq_iff hi hj := ⟨h.eq_of_paired h' hu hi hj, h'.eq_of_paired h hu hi.symm hj.symm⟩
  kind hi := by
    rcases h.paired_cases h' hu hi with ⟨c, hc, rfl, rfl⟩ | ⟨q, u, hf, hf'⟩
    · rw [(h.declares c hc).kind, (h'.declares c hc).kind]
    · rw [hf.names.kind, hf'.names.kind]
  qualifiedName hi := by
    rcases h.paired_cases h' hu hi with ⟨c, hc, rfl, rfl⟩ | ⟨q, u, hf, hf'⟩
    · obtain ⟨q, hcq⟩ := h.named c hc
      rw [h.qualifiedName hc hcq, h'.qualifiedName hc hcq]
    · rw [hf.names.name, hf'.names.name]
  isUnknown hi := by
    rcases h.paired_cases h' hu hi with ⟨c, hc, rfl, rfl⟩ | ⟨q, u, hf, hf'⟩
    · rw [(h.declares c hc).isUnknown, (h'.declares c hc).isUnknown]
    · rw [hf.isUnknown, hf'.isUnknown]
  site hi := by
    rcases h.paired_cases h' hu hi with ⟨c, hc, rfl, rfl⟩ | ⟨q, u, hf, hf'⟩
    · rw [h.site c hc, h'.site c hc]
    · rw [(h.bare _ hf.outside).2, (h'.bare _ hf'.outside).2]
  annotations hi := by
    rcases h.paired_cases h' hu hi with ⟨c, hc, rfl, rfl⟩ | ⟨q, u, hf, hf'⟩
    · exact h.annotations_matches h' hc
    · rw [(h.bare _ hf.outside).1, (h'.bare _ hf'.outside).1]
      exact .nil

end Two

end Settled

end Graph

end Nullness
