import Nullness.Proofs.Description
import Nullness.Proofs.Placement

/-!
# What a loaded graph holds

Entries are loaded in two steps: they are declared in their order, and then what they say
beyond that is attached to their symbols.

- `Graph.Loaded`: the two steps, and where they lead.
- `Graph.Hosts`, `Graph.ofEntries_hosts`: each entry has its symbol, and these symbols come
  first.
- `Graph.ofEntries_attached`: annotations and sites are those of the entries, and nothing is
  attached to any other symbol.
-/

namespace Nullness

open Document

namespace Graph

variable {es : List SymbolEntry} {g : Graph}

/-- Loading the entries leads to the graph: declaring them leads to `base`, and describing them
from there to `r`. -/
structure Loaded (es : List SymbolEntry) (g : Graph) (home : String → SymbolId)
    (placed : List SymbolEntry) (base r : Registry) (done : Registry.Declared) : Prop where
  distinct : (es.map (·.id)).Nodup
  arranged : Arranged es es placed
  placed : base.Placed g home placed done
  described : base.describeAll done es = .ok r
  reachable : r.Reachable
  graph : r.toGraph = g

theorem exists_loaded (h : Graph.ofEntries es = .ok g) :
    ∃ home placed base r done, Loaded es g home placed base r done := by
  rw [ofEntries] at h
  cases hrepeated : repeatedId? [] es with
  | some id =>
    rw [hrepeated] at h
    cases h
  | none =>
    have hd := (repeatedId?_eq_none_iff.1 hrepeated).1
    cases horder : order es with
    | error err =>
      rw [hrepeated, horder] at h
      cases h
    | ok positions =>
      have harranged := arranged_of_order hd horder
      rw [hrepeated, horder] at h
      dsimp only at h
      generalize positions.filterMap (es[·]?) = placed at h harranged
      obtain ⟨home, hplaced⟩ := Registry.exists_placed (harranged.founded hd (List.Subset.refl es))
        (harranged.nodup hd (List.Subset.refl es))
      generalize Registry.declareAll {} [] placed = declared at h hplaced
      obtain ⟨base, done⟩ := declared
      cases hdescribed : base.describeAll done es with
      | error err =>
        rw [hdescribed] at h
        cases h
      | ok r =>
        rw [hdescribed] at h
        cases h
        have hself := hplaced base.toGraph (.refl _)
        have hlt : ∀ e ∈ es, ∀ id, done.lookup e.id = some id → id < base.size := by
          intro e he id hid
          have he' := harranged.mem_placed hd (List.Subset.refl es) he
          rw [hself.found e he', Option.some_inj] at hid
          exact hid ▸ (hself.declares e he').lt
        obtain ⟨hreachable, hext⟩ := hself.reachable.describeAll hlt hdescribed
        exact ⟨home, placed, base, r, done, hd, harranged, hplaced _ hext, hdescribed, hreachable,
          rfl⟩

/-! ## Symbols of entries -/

/-- Each entry has its symbol, told by the identifier of the entry. Those symbols are the first
`n` of the graph, in the order of declaration. -/
structure Hosts (g : Graph) (home : String → SymbolId) (es placed : List SymbolEntry)
    (n : Nat) : Prop where
  owner : ∀ e ∈ es, ∀ w, e.owner = some w → ∃ o ∈ es, o.id = w
  declares : ∀ e ∈ es, g.Declares home e
  unshared : ∀ e ∈ es, e.kind ≠ .pkg → ∀ o ∈ es, home o.id = home e.id → o = e
  arranged : Arranged es es placed
  numbered : g.Numbered home placed n
  initial : ∀ i, i < n ↔ ∃ e ∈ es, home e.id = i

namespace Loaded

variable {home : String → SymbolId} {placed : List SymbolEntry} {base r : Registry}
variable {done : Registry.Declared} {e : SymbolEntry}

theorem mem_placed (h : Loaded es g home placed base r done) (he : e ∈ es) : e ∈ placed :=
  h.arranged.mem_placed h.distinct (List.Subset.refl es) he

theorem mem_of_placed (h : Loaded es g home placed base r done) (he : e ∈ placed) : e ∈ es :=
  h.arranged.subset (List.Subset.refl es) he

theorem declares (h : Loaded es g home placed base r done) (he : e ∈ es) : g.Declares home e :=
  (h.placed.declares e (h.mem_placed he)).mono h.placed.reachable.sound h.placed.keeps

theorem hosts (h : Loaded es g home placed base r done) (ha : Acceptable es) :
    g.Hosts home es placed base.size := by
  refine ⟨ha.owners, fun e he => h.declares he, fun e he hk o ho hhome => ?_, h.arranged,
    h.placed.numbered, fun i => ?_⟩
  · exact h.placed.numbered.eq_of_home_eq (fun o ho => h.declares (h.mem_of_placed ho))
      (h.mem_placed he) (h.mem_placed ho) hk hhome
  · rw [h.placed.numbered.lt_iff]
    constructor
    · rintro ⟨e, he, hi⟩
      exact ⟨e, h.mem_of_placed he, hi⟩
    · rintro ⟨e, he, hi⟩
      exact ⟨e, h.mem_placed he, hi⟩

/-- Entries are described by any reading that references bear out. -/
theorem described_by {I : List String → Registry → Prop} {M : List String → Reference → Prop}
    {R : Reading} (h : Loaded es g home placed base r done) (hI : Registry.Interprets I g M R)
    (htol : Registry.Tolerates (I [])) (hbase : I [] base)
    (hM : ∀ e ∈ es, ∀ a ∈ e.annotations, ∀ m ∈ a.references [], M m.1 m.2) :
    Registry.Described (I []) g R home es base r :=
  Registry.described_describeAll hI htol (fun e he => h.placed.found e (h.mem_placed he)) hM
    (fun e he => (h.placed.declares e (h.mem_placed he)).lt) hbase h.described

theorem described_byName (h : Loaded es g home placed base r done) :
    Registry.Described Registry.Exact g (Registry.byName g) home es base r := by
  have hI := Registry.interprets_byName (I := Registry.Exact) g id
    (fun q u hr => hr.typeOf q u) (fun c k hr => hr.enumConstant c k)
  exact h.described_by hI Registry.tolerates_exact h.placed.reachable.exact
    fun _ _ _ _ _ _ => trivial

/-- What is attached to a symbol is what its entries say. -/
theorem annotations {I : Registry → Prop} {R : Reading}
    (h : Loaded es g home placed base r done) (hd : Registry.Described I g R home es base r)
    (i : SymbolId) :
    List.Forall₂ (AnnotationEntry.Means R) ((es.filter (home ·.id = i)).flatMap (·.annotations))
      (g.annotations i) := by
  obtain ⟨bs, hbs, hmeans⟩ := hd.annotations (h.graph ▸ .refl _) i
  have hnone : base.annotations i = [] :=
    (h.placed.grown.annotations i).trans (Graph.annotations_of_le _ (Nat.zero_le i))
  rw [← h.graph, hbs, hnone, List.nil_append]
  exact hmeans

theorem site (h : Loaded es g home placed base r done) (i : SymbolId) :
    (g.symbol i).site = ((es.filter (home ·.id = i)).filterMap (·.site)).getLast? := by
  have hnone : (base.symbol i).site = none := by
    rw [h.placed.grown.site i, Graph.symbol_of_le _ (Nat.zero_le i)]
    rfl
  rw [← h.graph, h.described_byName.site i, hnone, Option.or_none]

theorem filter_home_of_le (h : Loaded es g home placed base r done) {i : SymbolId}
    (hi : base.size ≤ i) : es.filter (home ·.id = i) = [] := by
  rw [List.filter_eq_nil_iff]
  intro e he hid
  have hlt := (h.placed.declares e (h.mem_placed he)).lt
  rw [decide_eq_true_eq.mp hid] at hlt
  exact absurd hlt (Nat.not_lt.mpr hi)

/-- Nothing is attached to a symbol that has no entry. -/
theorem annotations_of_le (h : Loaded es g home placed base r done) {i : SymbolId}
    (hi : base.size ≤ i) : g.annotations i = [] := by
  have hempty := h.annotations h.described_byName i
  rw [h.filter_home_of_le hi] at hempty
  exact List.forall₂_nil_left_iff.mp hempty

theorem site_of_le (h : Loaded es g home placed base r done) {i : SymbolId}
    (hi : base.size ≤ i) : (g.symbol i).site = none := by
  rw [h.site, h.filter_home_of_le hi]
  rfl

end Loaded

/-- **Placement.** Each entry has its symbol, of the kind and name, with the marks and with the
owner that it says, and shares it with no other, unless they are packages of one name that are
known and have no owner. The symbols of entries come first, in the order of declaration. -/
theorem ofEntries_hosts (h : Graph.ofEntries es = .ok g) :
    ∃ home placed n, g.Hosts home es placed n := by
  obtain ⟨home, placed, base, r, done, hl⟩ := exists_loaded h
  exact ⟨home, placed, base.size, hl.hosts (acceptable_of_ofEntries h)⟩

/-- A field stands before its class, which is in a package that has an owner. Another package
has the whole name of that one, and both have annotations and a site. -/
def joining : List SymbolEntry :=
  [ { id := "f", kind := .var, name := "f", owner := some "C" },
    { id := "C", kind := .cls, name := "C", owner := some "b" },
    { id := "b", kind := .pkg, name := "b", owner := some "a", site := some ⟨"b.java", 1⟩,
      annotations := [⟨"q.A", false, []⟩] },
    { id := "a", kind := .pkg, name := "a" },
    { id := "a.b", kind := .pkg, name := "a.b", site := some ⟨"package-info.java", 2⟩,
      annotations := [⟨"q.A", true,
        [⟨"value", .list [.constant "q.E.X", .nested ⟨"q.B", false, []⟩]⟩]⟩] } ]

theorem exists_of_isSome (es : List SymbolEntry)
    (h : (Graph.ofEntries es).toOption.isSome = true) :
    ∃ g, Graph.ofEntries es = .ok g := by
  cases hload : Graph.ofEntries es with
  | ok g => exact ⟨g, rfl⟩
  | error err =>
    rw [hload] at h
    cases h

theorem ofEntries_joining : ∃ g, Graph.ofEntries joining = .ok g :=
  exists_of_isSome _ (by cbv)

theorem hosts_joining : ∃ (g : Graph) (home : String → SymbolId) (placed : List SymbolEntry)
    (n : Nat), Graph.ofEntries joining = .ok g ∧ g.Hosts home joining placed n := by
  obtain ⟨g, h⟩ := ofEntries_joining
  obtain ⟨home, placed, n, hosts⟩ := ofEntries_hosts h
  exact ⟨g, home, placed, n, h, hosts⟩

/-! ## What is attached -/

/-- **Attachment.** What is attached to a symbol is what its entries say, in the order of the
document: all their annotations, each as its entry means it when names are read by name, and
the last of their sites. Nothing is attached to the symbols that have no entry. -/
theorem ofEntries_attached (h : Graph.ofEntries es = .ok g) :
    ∃ home placed n, g.Hosts home es placed n ∧
      (∀ i, List.Forall₂ (AnnotationEntry.Means (Registry.byName g))
        ((es.filter (home ·.id = i)).flatMap (·.annotations)) (g.annotations i)) ∧
      (∀ i, (g.symbol i).site = ((es.filter (home ·.id = i)).filterMap (·.site)).getLast?) ∧
      ∀ i, n ≤ i → g.annotations i = [] ∧ (g.symbol i).site = none := by
  obtain ⟨home, placed, base, r, done, hl⟩ := exists_loaded h
  exact ⟨home, placed, base.size, hl.hosts (acceptable_of_ofEntries h),
    hl.annotations hl.described_byName, hl.site,
    fun i hi => ⟨hl.annotations_of_le hi, hl.site_of_le hi⟩⟩

/-- Both packages of one name give annotations, the unresolved type has a symbol of its own,
and the constant and the type in the list are supplied. -/
theorem attached_joining : ∃ (g : Graph) (home : String → SymbolId) (placed : List SymbolEntry)
    (n : Nat), Graph.ofEntries joining = .ok g ∧ g.Hosts home joining placed n ∧
    (∀ i, List.Forall₂ (AnnotationEntry.Means (Registry.byName g))
      ((joining.filter (home ·.id = i)).flatMap (·.annotations)) (g.annotations i)) ∧
    (∀ i, (g.symbol i).site = ((joining.filter (home ·.id = i)).filterMap (·.site)).getLast?) ∧
    ∀ i, n ≤ i → g.annotations i = [] ∧ (g.symbol i).site = none := by
  obtain ⟨g, h⟩ := ofEntries_joining
  obtain ⟨home, placed, n, attached⟩ := ofEntries_attached h
  exact ⟨g, home, placed, n, h, attached⟩

end Graph

end Nullness
