import Nullness.Proofs.Naming

/-!
# What types of annotations are

The name of a type leads to the class entry of that name, known or not. Where there is none,
a known class is supplied. There is one exception: an enum constant supplies its class without
looking for an unknown entry, and from then on the name leads to what was supplied.

- `Document.Wanted`: the names under which symbols are supplied.
- `Graph.TypeFor`, `Graph.ConstantFor`: what names in annotations stand for.
- `Graph.ofEntries_types`: annotations have the types that entries declare.
-/

namespace Nullness

open Document

namespace Document

variable {es : List SymbolEntry} {q : String}

/-- An enum constant of the class occurs in annotations. -/
def HasEnum (es : List SymbolEntry) (q : String) : Prop :=
  ∃ c last, HasConstant es c ∧ Registry.splitLastDot c = some (q, last)

/-- Annotations refer to a class by this name: as a type that is not marked unresolved, or as
the class of an enum constant. -/
def Refers (es : List SymbolEntry) (q : String) : Prop :=
  HasType es q false ∨ HasEnum es q

/-- The name occurs in annotations of some entry, within these types. -/
def Occurs (es : List SymbolEntry) (around : List String) (x : Reference) : Prop :=
  ∃ e ∈ es, ∃ a ∈ e.annotations, (around, x) ∈ a.references []

/-- Annotations refer to a class by this name within these types. -/
def RefersWithin (es : List SymbolEntry) (around : List String) (q : String) : Prop :=
  Occurs es around (.type q false) ∨
    ∃ c last, Occurs es around (.constant c) ∧ Registry.splitLastDot c = some (q, last)

/-- The kinds and names of the known symbols that may be supplied. A class is supplied if no
class entry has its name, or only an unknown one that an enum constant overlooks; a package,
if it encloses such a class and is no known class itself. That is a class within annotations of
which it is the type, unless an entry or an enum constant has its name. -/
inductive Wanted (es : List SymbolEntry) : Kind → String → Prop
  | cls {q : String} : Refers es q →
      (∀ c ∈ es, c.kind = .cls → Named es c q → c.isUnknown = true ∧ HasEnum es q) →
      Wanted es .cls q
  | pkg {around : List String} {q outer name : String} : RefersWithin es around q →
      Wanted es .cls q → Registry.splitLastDot q = some (outer, name) →
      (∀ c ∈ es, c.kind = .cls → Named es c outer → c.isUnknown = true) →
      (outer ∈ around → (∃ e ∈ es, Named es e outer) ∨ HasConstant es outer) →
      Wanted es .pkg outer
  | var {c : String} : HasConstant es c → Wanted es .var c

theorem occurs_iff {around : List String} {x : Reference} : Occurs es around x ↔
    (around, x) ∈ es.flatMap fun e => e.annotations.flatMap (·.references []) := by
  simp [Occurs]

theorem Occurs.hasType {around : List String} {u : Bool} (h : Occurs es around (.type q u)) :
    HasType es q u := by
  obtain ⟨e, he, a, ha, hm⟩ := h
  exact ⟨e, he, a, ha, a.among_references [] _ hm⟩

theorem Occurs.hasConstant {around : List String} (h : Occurs es around (.constant q)) :
    HasConstant es q := by
  obtain ⟨e, he, a, ha, hm⟩ := h
  exact ⟨e, he, a, ha, a.among_references [] _ hm⟩

/-- Whatever is known under this name is a class that is supplied. -/
def Clear (es : List SymbolEntry) (q : String) : Prop :=
  (∀ e ∈ es, Named es e q → e.isUnknown = true) ∧ ∀ k, Wanted es k q → k = .cls

end Document

namespace Graph

/-- What the name of a type stands for. Symbols from position `n` on belong to no entry. -/
structure TypeFor (g : Graph) (home : String → SymbolId) (es : List SymbolEntry) (n : Nat)
    (q : String) (isUnresolved : Bool) (i : SymbolId) : Prop where
  names : g.NamesClass q i
  unresolved : isUnresolved = true → (g.symbol i).isUnknown = true ∧ n ≤ i
  declared : isUnresolved = false → ∀ c ∈ es, c.kind = .cls → Named es c q →
    i = home c.id ∨ (c.isUnknown = true ∧ HasEnum es q ∧ (g.symbol i).isUnknown = false ∧ n ≤ i)
  undeclared : isUnresolved = false → (∀ c ∈ es, c.kind = .cls → ¬ Named es c q) →
    (g.symbol i).isUnknown = false ∧ n ≤ i ∧ (Clear es q → g.find? q = some i)

/-- What an enum constant stands for. -/
structure ConstantFor (g : Graph) (home : String → SymbolId) (es : List SymbolEntry)
    (c : String) (i : SymbolId) : Prop where
  qualified : ∃ parts, Registry.splitLastDot c = some parts
  knows : g.Knows .var c i
  declared : ∀ e ∈ es, e.kind = .var → e.isUnknown = false → Named es e c → i = home e.id

/-- Names are read as what entries declare. -/
def byEntry (g : Graph) (home : String → SymbolId) (es : List SymbolEntry) (n : Nat) : Reading where
  type := g.TypeFor home es n
  constant := g.ConstantFor home es

end Graph

namespace Registry

variable {es : List SymbolEntry} {base s s' : Registry} {around : List String} {q t : String}

/-- The name leads to a class, unless an entry, an enum constant or a package may have it. -/
def Holds (s : Registry) (es : List SymbolEntry) (q : String) : Prop :=
  (∃ i, s.findKind? q .cls = some i) ∨ (∃ e ∈ es, Named es e q) ∨ HasConstant es q ∨
    Wanted es .pkg q

/-- What is wanted was supplied, and the types of the annotations around were read. -/
structure SuppliedWithin (es : List SymbolEntry) (base : Registry) (around : List String)
    (s : Registry) : Prop where
  supplied : Supplied (Wanted es) base s
  holds : ∀ t ∈ around, s.Holds es t

theorem Holds.mono (h : s.Holds es q) (hs : s.Exact) (hs' : s'.Exact)
    (hext : s.Extends s'.toGraph) : s'.Holds es q :=
  h.imp_left fun ⟨i, hi⟩ => ⟨i, hs.findKind?_mono hs' hext hi⟩

theorem SuppliedWithin.mono (h : SuppliedWithin es base around s)
    (hs' : Supplied (Wanted es) base s') (hext : s.Extends s'.toGraph) :
    SuppliedWithin es base around s' :=
  ⟨hs', fun t ht => (h.holds t ht).mono h.supplied.exact hs'.exact hext⟩

theorem SuppliedWithin.of_holds (h : SuppliedWithin es base around s)
    {u : Bool} (hq : u = false → s.Holds es q) :
    SuppliedWithin es base (enter q u around) s := by
  cases u with
  | true => exact h
  | false => exact ⟨h.supplied, List.forall_mem_cons.mpr ⟨hq rfl, h.holds⟩⟩

theorem SuppliedWithin.leave {u : Bool} (h : SuppliedWithin es base (enter q u around) s) :
    SuppliedWithin es base around s := by
  cases u with
  | true => exact h
  | false => exact ⟨h.supplied, (List.forall_mem_cons.mp h.holds).2⟩

theorem tolerates_suppliedWithin (es : List SymbolEntry) (base : Registry)
    (around : List String) : Tolerates (SuppliedWithin es base around) where
  annotate id a h := h.mono (h.supplied.annotate id a) (extends_annotate _ id a)
  setSite id site h := h.mono (h.supplied.setSite id site) (extends_setSite _ id site)

end Registry

namespace Graph

namespace Loaded

variable {es : List SymbolEntry} {g : Graph} {home : String → SymbolId} {q : String}
variable {placed : List SymbolEntry} {base r s : Registry} {done : Registry.Declared}
variable {around : List String}

section Distinct
variable (h : Loaded es g home placed base r done) (ha : Acceptable es) (hn : DistinctNames es)
include h ha hn

/-- A known class entry is found whatever was supplied. -/
theorem findKind?_of_named (hs : Registry.Supplied (Wanted es) base s) {e : SymbolEntry}
    (he : e ∈ es) (hq : Named es e q) (hu : e.isUnknown = false) :
    s.findKind? q e.kind = some (home e.id) := by
  have hfind := h.find?_of_named ha hn he hq hu
  have hd := h.declares_base e he
  have hbare := hs.keeps.bare _ hd.lt
  exact hs.exact.findKind?_eq_some_iff.mpr
    ⟨h.placed.reachable.exact.find?_mono hs.exact hs.keeps hfind,
      (Symbol.kind_of_bare hbare).trans hd.kind⟩

theorem isUnknown_of_findKind?_eq_none (hs : Registry.Supplied (Wanted es) base s) {k : Kind}
    (hnone : s.findKind? q k = none) :
    ∀ c ∈ es, c.kind = k → Named es c q → c.isUnknown = true := by
  rintro c hc rfl hq
  by_contra hu
  have hfind := h.findKind?_of_named ha hn hs hc hq (Bool.eq_false_iff.mpr hu)
  rw [hnone] at hfind
  cases hfind

theorem wanted_cls_of_hasType (hs : Registry.Supplied (Wanted es) base s)
    (hq : HasType es q false) (hnone : s.findKind? q .cls = none)
    (hmissing : ∀ id, s.unknownNames.find? q = some id → (s.symbol id).kind ≠ .cls) :
    Wanted es .cls q := by
  refine .cls (Or.inl hq) fun c hc hk hcq => ?_
  have hu := h.isUnknown_of_findKind?_eq_none ha hn hs hnone c hc hk hcq
  have hfind := h.placed.reachable.exact.missing_mono hs.exact hs.keeps
    (h.missing_of_named ha hn hc hcq hu)
  have hd := h.declares_base c hc
  have hkind := (Symbol.kind_of_bare (hs.keeps.bare _ hd.lt)).trans hd.kind
  -- an unknown class entry of that name would have been taken
  exact absurd (hkind.trans hk) (hmissing _ hfind)

theorem wanted_cls_of_hasEnum (hs : Registry.Supplied (Wanted es) base s) (hq : HasEnum es q)
    (hnone : s.findKind? q .cls = none) : Wanted es .cls q :=
  .cls (Or.inr hq) fun c hc hk hcq =>
    ⟨h.isUnknown_of_findKind?_eq_none ha hn hs hnone c hc hk hcq, hq⟩

omit hn in
/-- A symbol that is known under a name is that of an entry, or it was supplied. -/
theorem known_cases (hs : Registry.Supplied (Wanted es) base s) {k : Kind} {i : SymbolId}
    (hi : s.Knows k q i) :
    (∃ e ∈ es, e.kind = k ∧ e.isUnknown = false ∧ Named es e q ∧ i = home e.id) ∨
      (base.size ≤ i ∧ Wanted es k q) := by
  rcases hs.of_knows hi with hbase | hw
  · obtain ⟨e, he, rfl⟩ := h.exists_entry hbase.lt
    obtain ⟨q', hq'⟩ := (ha.rooted e he).exists_named
    have hname := qualifiedName_of_named h.declares_base he hq'
    rw [hbase.name] at hname
    subst hname
    have hd := h.declares_base e he
    exact Or.inl ⟨e, he, hd.kind.symm.trans hbase.kind, hd.isUnknown.symm.trans hbase.known,
      hq', rfl⟩
  · exact Or.inr hw

omit hn in
/-- A class that was declared unknown is that of an entry. -/
theorem exists_missing (hs : Registry.Supplied (Wanted es) base s) {i : SymbolId}
    (hi : s.unknownNames.find? q = some i) (hk : (s.symbol i).kind = .cls) :
    ∃ c ∈ es, c.kind = .cls ∧ Named es c q ∧ i = home c.id := by
  obtain ⟨hmissing, hlt, -⟩ := hs.exact.missing_eq_some_iff.mp hi
  obtain ⟨-, hsynthetic, hname⟩ := Symbol.isMissingAs_iff.mp hmissing
  -- what is supplied was never declared unknown
  have hbase : i < base.size := by
    by_contra hge
    have hsupply := (hs.supply i (Nat.le_of_not_lt hge) hlt).undeclared
    rw [hk, hsynthetic] at hsupply
    exact absurd hsupply (by decide)
  obtain ⟨c, hc, rfl⟩ := h.exists_entry hbase
  have hbare := hs.keeps.bare _ hbase
  have hd := h.declares_base c hc
  obtain ⟨q', hq'⟩ := (ha.rooted c hc).exists_named
  have hcq : q' = q := by
    rw [← qualifiedName_of_named h.declares_base hc hq', ← hname]
    exact (Symbol.qualifiedName_of_bare hbare).symm
  exact ⟨c, hc, hd.kind.symm.trans ((Symbol.kind_of_bare hbare).symm.trans hk), hcq ▸ hq', rfl⟩

/-- A known class is what its name stands for as a type. -/
theorem typeFor_of_knows (hs : Registry.Supplied (Wanted es) base s) (hg : s.Extends g)
    {i : SymbolId} (hi : s.Knows .cls q i) (hfind : Clear es q → s.find? q = some i) :
    g.TypeFor home es base.size q false i := by
  have hknows := hi.mono hg
  refine ⟨hknows.namesClass, nofun, fun _ c hc hk hcq => ?_, fun _ hnone => ?_⟩
  · rcases h.known_cases ha hs hi with ⟨c', hc', -, -, hcq', hid⟩ | ⟨hge, hw⟩
    · rw [hn c hc c' hc' q hcq hcq']
      exact Or.inl hid
    · cases hw with
      | cls _ hover =>
        obtain ⟨hu, henum⟩ := hover c hc hk hcq
        exact Or.inr ⟨hu, henum, hknows.known, hge⟩
  · rcases h.known_cases ha hs hi with ⟨c, hc, hk, -, hcq, -⟩ | ⟨hge, -⟩
    · exact absurd hcq (hnone c hc hk)
    · refine ⟨hknows.known, hge, fun hclear => ?_⟩
      have hexact := h.reachable.exact
      have hext : s.Extends r.toGraph := h.graph.symm ▸ hg
      rw [← h.graph]
      exact hs.exact.find?_mono hexact hext (hfind hclear)

/-- A class that was declared unknown is what its name stands for as a type. -/
theorem typeFor_of_missing (hs : Registry.Supplied (Wanted es) base s) (hg : s.Extends g)
    {i : SymbolId} (hi : s.unknownNames.find? q = some i) (hk : (s.symbol i).kind = .cls) :
    g.TypeFor home es base.size q false i := by
  obtain ⟨hmissing, hlt, -⟩ := hs.exact.missing_eq_some_iff.mp hi
  have hname := (Symbol.isMissingAs_iff.mp hmissing).2.2
  obtain ⟨c, hc, hck, hcq, rfl⟩ := h.exists_missing ha hs hi hk
  refine ⟨Graph.NamesClass.mono ⟨hlt, hk, hname⟩ hg, nofun, fun _ c' hc' _ hcq' => ?_,
    fun _ hnone => absurd hcq (hnone c hc hck)⟩
  rw [hn c' hc' c hc q hcq' hcq]
  exact Or.inl rfl

omit hn in
/-- What is clear leads to a class, if it leads anywhere. -/
theorem findKind?_of_clear (hs : Registry.Supplied (Wanted es) base s) (hclear : Clear es q)
    {i : SymbolId} (hi : s.find? q = some i) : s.findKind? q .cls = some i := by
  refine hs.exact.findKind?_eq_some_iff.mpr ⟨hi, ?_⟩
  rcases h.known_cases ha hs (hs.exact.knows_of_find? hi) with ⟨e, he, -, hu, hq, -⟩ | ⟨-, hw⟩
  · rw [hclear.1 e he hq] at hu
    cases hu
  · exact hclear.2 _ hw

/-! ### Reading names -/

omit hn in
/-- A known class holds its name. -/
theorem holds_of_knows (hs : Registry.Supplied (Wanted es) base s) {i : SymbolId}
    (hi : s.Knows .cls q i) : s.Holds es q := by
  obtain ⟨j, hfind⟩ := hs.exact.exists_find?_of_knows hi
  rcases h.known_cases ha hs (hs.exact.knows_of_find? hfind) with ⟨e, he, -, -, hq, -⟩ | ⟨-, hw⟩
  · exact .inr (.inl ⟨e, he, hq⟩)
  · cases hk : (s.symbol j).kind with
    | cls => exact .inl ⟨j, hs.exact.findKind?_eq_some_iff.mpr ⟨hfind, hk⟩⟩
    | pkg => exact .inr (.inr (.inr (hk ▸ hw)))
    | var =>
      rw [hk] at hw
      cases hw with
      | var hc => exact .inr (.inr (.inl hc))
    | method =>
      rw [hk] at hw
      cases hw

/-- A class that encloses what is supplied is found, or its package is wanted. -/
theorem wanted_outer (hs : Registry.SuppliedWithin es base around s)
    (hr : RefersWithin es around q) (hw : Wanted es .cls q) :
    ∀ outer name, Registry.splitLastDot q = some (outer, name) →
      s.findKind? outer .cls = none → Wanted es .pkg outer := by
  intro outer name hsplit hnone
  have hu := h.isUnknown_of_findKind?_eq_none ha hn hs.supplied hnone
  by_cases hmem : outer ∈ around
  · rcases hs.holds outer hmem with ⟨i, hi⟩ | he | hc | hpkg
    · rw [hnone] at hi
      cases hi
    · exact .pkg hr hw hsplit hu fun _ => .inl he
    · exact .pkg hr hw hsplit hu fun _ => .inr hc
    · exact hpkg
  · exact .pkg hr hw hsplit hu fun h => absurd h hmem

theorem supplied_typeOf (hs : Registry.SuppliedWithin es base around s) {isUnresolved : Bool}
    (hq : Occurs es around (.type q isUnresolved)) :
    Registry.Supplied (Wanted es) base (s.typeOf q isUnresolved).1 := by
  cases isUnresolved with
  | true => exact hs.supplied.addUnknown q
  | false =>
    refine hs.supplied.typeOf false fun hnone hmissing => ?_
    have hw := h.wanted_cls_of_hasType ha hn hs.supplied hq.hasType hnone hmissing
    exact ⟨hw, h.wanted_outer ha hn hs (.inl hq) hw⟩

/-- A type holds its name, unless it is marked unresolved. -/
theorem within_typeOf (hs : Registry.SuppliedWithin es base around s) {isUnresolved : Bool}
    (hq : Occurs es around (.type q isUnresolved)) :
    Registry.SuppliedWithin es base (enter q isUnresolved around) (s.typeOf q isUnresolved).1 := by
  have hs' := h.supplied_typeOf ha hn hs hq
  have hkept := hs.mono hs' (Registry.grown_typeOf s q isUnresolved).extends
  refine hkept.of_holds ?_
  rintro rfl
  rcases Registry.typeOf_cases s q with ⟨i, hfind, heq⟩ | ⟨-, i, hmissing, hk, heq⟩ | ⟨-, -, heq⟩
  · rw [heq]
    exact .inl ⟨i, hfind⟩
  · obtain ⟨c, hc, -, hcq, -⟩ := h.exists_missing ha hs.supplied hmissing hk
    exact .inr (.inl ⟨c, hc, hcq⟩)
  · rw [heq] at hs' ⊢
    exact h.holds_of_knows ha hs' (hs.supplied.exact.knows_ensureClass q)

theorem typeFor_typeOf (hs : Registry.SuppliedWithin es base around s) {isUnresolved : Bool}
    (hq : Occurs es around (.type q isUnresolved))
    (hg : (s.typeOf q isUnresolved).1.Extends g) :
    g.TypeFor home es base.size q isUnresolved (s.typeOf q isUnresolved).2 := by
  have hs' := h.supplied_typeOf ha hn hs hq
  have hexact := hs.supplied.exact
  have hnames := hexact.namesClass_typeOf q isUnresolved
  cases isUnresolved with
  | true =>
    refine ⟨hnames.mono hg, fun _ => ⟨?_, ?_⟩, nofun, nofun⟩
    · rw [Symbol.isUnknown_of_bare (hg.bare _ hnames.lt), Registry.typeOf_unresolved,
        Registry.push_snd, Registry.symbol_push_size]
      rfl
    · exact hs.supplied.keeps.size_le
  | false =>
    have hclear : (s.typeOf q false).1.Knows .cls q (s.typeOf q false).2 → Clear es q →
        (s.typeOf q false).1.find? q = some (s.typeOf q false).2 := by
      intro hi hclear
      obtain ⟨j, hfind⟩ := hs'.exact.exists_find?_of_knows hi
      rw [hfind, hexact.eq_of_findKind?_typeOf (h.findKind?_of_clear ha hs' hclear hfind)]
    rcases Registry.typeOf_cases s q with
      ⟨i, hfind, heq⟩ | ⟨-, i, hmissing, hk, heq⟩ | ⟨-, -, heq⟩
    · have hi := hexact.knows_of_findKind? hfind
      rw [heq] at hg hs' hclear ⊢
      exact h.typeFor_of_knows ha hn hs' hg hi (hclear hi)
    · rw [heq] at hg ⊢
      exact h.typeFor_of_missing ha hn hs.supplied hg hmissing hk
    · have hi := hexact.knows_ensureClass q
      rw [heq] at hg hs' hclear ⊢
      exact h.typeFor_of_knows ha hn hs' hg hi (hclear hi)

/-- The class of an enum constant is found, or it is wanted with what encloses it. -/
theorem wanted_of_constant (hs : Registry.SuppliedWithin es base around s)
    {c front last : String} (hc : Occurs es around (.constant c))
    (hsplit : Registry.splitLastDot c = some (front, last))
    (hnone : s.findKind? front .cls = none) : Wanted es .cls front ∧
      ∀ outer name, Registry.splitLastDot front = some (outer, name) →
        s.findKind? outer .cls = none → Wanted es .pkg outer := by
  have hw := h.wanted_cls_of_hasEnum ha hn hs.supplied ⟨c, last, hc.hasConstant, hsplit⟩ hnone
  exact ⟨hw, h.wanted_outer ha hn hs (.inr ⟨c, last, hc, hsplit⟩) hw⟩

theorem within_enumConstant (hs : Registry.SuppliedWithin es base around s)
    {c front last : String} (hc : Occurs es around (.constant c))
    (hsplit : Registry.splitLastDot c = some (front, last)) :
    Registry.SuppliedWithin es base around (s.enumConstant front last).1 :=
  hs.mono
    (hs.supplied.enumConstant hsplit (h.wanted_of_constant ha hn hs hc hsplit)
      (.var hc.hasConstant))
    (Registry.delivers_enumConstant s front last).1.extends

theorem constantFor_enumConstant (hs : Registry.SuppliedWithin es base around s)
    {c front last : String} (hc : Occurs es around (.constant c))
    (hsplit : Registry.splitLastDot c = some (front, last))
    (hg : (s.enumConstant front last).1.Extends g) :
    g.ConstantFor home es c (s.enumConstant front last).2 := by
  have hexact := hs.supplied.exact
  refine ⟨⟨_, hsplit⟩, (hexact.knows_enumConstant hsplit).mono hg, fun e he hk hu hq => ?_⟩
  have hclass := hs.supplied.ensureClass (h.wanted_of_constant ha hn hs hc hsplit)
  have hfind := h.findKind?_of_named ha hn hclass he hq hu
  have hname := Registry.qualify_of_splitLastDot hsplit (hexact.knows_ensureClass front).name
  rw [hk, ← hname] at hfind
  rcases Registry.enumConstant_cases s front last with ⟨i, hi, heq⟩ | ⟨hnone, -⟩
  · rw [heq]
    rw [hfind] at hi
    exact (Option.some.inj hi).symm
  · rw [hfind] at hnone
    cases hnone

theorem interprets_byEntry :
    Registry.Interprets (Registry.SuppliedWithin es base) g (Occurs es)
      (g.byEntry home es base.size) where
  type hs hq := ⟨h.within_typeOf ha hn hs hq, h.typeFor_typeOf ha hn hs hq⟩
  constant hs hc hsplit :=
    ⟨h.within_enumConstant ha hn hs hc hsplit, h.constantFor_enumConstant ha hn hs hc hsplit⟩
  leave _ _ hs := hs.leave

theorem described_byEntry :
    Registry.Described (Registry.SuppliedWithin es base []) g (g.byEntry home es base.size) home
      es base r :=
  h.described_by (h.interprets_byEntry ha hn) (Registry.tolerates_suppliedWithin es base [])
    ⟨h.placed.reachable.exact.supplied, nofun⟩ fun e he a ha _ hm => ⟨e, he, a, ha, hm⟩

/-- The annotations of an entry's symbol are those of the entry. -/
theorem annotations_byEntry {e : SymbolEntry} (he : e ∈ es) :
    List.Forall₂ (AnnotationEntry.Means (g.byEntry home es base.size)) e.annotations
      (g.annotations (home e.id)) := by
  have hmeans := h.annotations (h.described_byEntry ha hn) (home e.id)
  rw [h.filter_home_eq ha hn he] at hmeans
  simpa using hmeans

end Distinct

end Loaded

/-! ## Types by declaration -/

/-- The name of a type stands for the class of the entry that has it, unless the entry is
unknown and its name is `exempt`, and for a known class without annotations if there is no such
entry. What is marked unresolved is unknown. -/
structure Resolves (g : Graph) (home : String → SymbolId) (es : List SymbolEntry)
    (exempt : String → Prop) (q : String) (isUnresolved : Bool) (i : SymbolId) : Prop where
  names : g.NamesClass q i
  unresolved : isUnresolved = true → (g.symbol i).isUnknown = true
  declared : isUnresolved = false → ∀ c ∈ es, c.kind = .cls → Named es c q →
    (c.isUnknown = true → ¬ exempt q) → i = home c.id
  overlooked : isUnresolved = false → ∀ c ∈ es, c.kind = .cls → Named es c q → i ≠ home c.id →
    (g.symbol i).isUnknown = false ∧ g.annotations i = []
  undeclared : isUnresolved = false → (∀ c ∈ es, c.kind = .cls → ¬ Named es c q) →
    (g.symbol i).isUnknown = false ∧ g.annotations i = []

/-- Names of types are read by declaration, and enum constants by name. -/
def byDeclaration (g : Graph) (home : String → SymbolId) (es : List SymbolEntry)
    (exempt : String → Prop) : Reading where
  type := g.Resolves home es exempt
  constant := g.Knows .var

variable {es : List SymbolEntry} {g : Graph}

theorem resolves_of_typeFor {home : String → SymbolId} {n : Nat} {q : String}
    {isUnresolved : Bool} {i : SymbolId} (hnone : ∀ i, n ≤ i → g.annotations i = [])
    (h : g.TypeFor home es n q isUnresolved i) :
    g.Resolves home es (HasEnum es) q isUnresolved i := by
  refine ⟨h.names, fun hu => (h.unresolved hu).1, fun hu c hc hk hcq hexempt => ?_,
    fun hu c hc hk hcq hne => ?_, fun hu hc => ?_⟩
  · rcases h.declared hu c hc hk hcq with hi | ⟨hcu, henum, -, -⟩
    · exact hi
    · exact absurd henum (hexempt hcu)
  · rcases h.declared hu c hc hk hcq with hi | ⟨-, -, hknown, hge⟩
    · exact absurd hi hne
    · exact ⟨hknown, hnone i hge⟩
  · obtain ⟨hknown, hge, -⟩ := h.undeclared hu hc
    exact ⟨hknown, hnone i hge⟩

/-- **Types by declaration.** Where qualified names differ, the type of an annotation is the
class of the entry that it names, also inside of arguments. Only an unknown entry may be
overlooked, when the class of some enum constant has its name. A type without an entry is a
known class without annotations, and one that is marked unresolved is unknown. -/
theorem ofEntries_types (h : Graph.ofEntries es = .ok g) (hn : DistinctNames es) :
    ∃ home placed n, g.Hosts home es placed n ∧
      ∀ e ∈ es, List.Forall₂ (AnnotationEntry.Means (g.byDeclaration home es (HasEnum es)))
        e.annotations (g.annotations (home e.id)) := by
  have ha := acceptable_of_ofEntries h
  obtain ⟨home, placed, base, r, done, hl⟩ := exists_loaded h
  refine ⟨home, placed, base.size, hl.hosts ha, fun e he => ?_⟩
  refine (hl.annotations_byEntry ha hn he).imp fun a b hab => hab.mono (fun q u i hi => ?_) ?_
  · exact resolves_of_typeFor (fun i hi => hl.annotations_of_le hi) hi
  · exact fun c i hi => hi.knows

/-- A package with a class about which nothing is known. -/
def package : SymbolEntry := { id := "p", kind := .pkg, name := "p" }

def missing : SymbolEntry :=
  { id := "Missing", kind := .cls, name := "Missing", owner := some "p", isUnknown := true }

def holder : SymbolEntry := { id := "C", kind := .cls, name := "C", owner := some "p" }

/-- A field with an annotation that mentions an enum constant. -/
def configured (constant : String) : SymbolEntry :=
  { id := "g", kind := .var, name := "g", owner := some "C",
    annotations := [⟨"q.Config", false, [⟨"kind", .constant constant⟩]⟩] }

/-- A field with an annotation whose type is declared unknown. -/
def suspect : SymbolEntry :=
  { id := "f", kind := .var, name := "f", owner := some "C",
    annotations := [⟨"p.Missing", false, []⟩, ⟨"javax.annotation.CheckForNull", false, []⟩] }

def missingType (constant : String) : List SymbolEntry :=
  [package, missing, holder, configured constant, suspect]

theorem nodup_missingType (c : String) : ((missingType c).map (·.id)).Nodup := by
  show ["p", "Missing", "C", "g", "f"].Nodup
  decide

theorem named_holder {es : List SymbolEntry} (hp : package ∈ es) : Named es holder "p.C" :=
  .owned ⟨hp, rfl⟩ (.root rfl)

theorem named_missing (c : String) : Named (missingType c) missing "p.Missing" :=
  .owned ⟨List.mem_cons_self, rfl⟩ (.root rfl)

theorem named_suspect (c : String) : Named (missingType c) suspect "p.C.f" :=
  .owned ⟨by simp, rfl⟩ (named_holder List.mem_cons_self)

theorem named_missingType (c : String) : List.Forall₂ (Named (missingType c)) (missingType c)
    ["p", "p.Missing", "p.C", "p.C.g", "p.C.f"] := by
  have hC : Named (missingType c) holder "p.C" := named_holder List.mem_cons_self
  have hg : Named (missingType c) (configured c) "p.C.g" :=
    .owned ⟨by simp [missingType], rfl⟩ hC
  exact .cons (.root rfl) (.cons (named_missing c) (.cons hC (.cons hg
    (.cons (named_suspect c) .nil))))

theorem distinctNames_missingType (c : String) : DistinctNames (missingType c) :=
  distinctNames_of_forall₂ (nodup_missingType c) (named_missingType c) (by decide)

/-- A constant of another class does not stand in the way. -/
theorem types_missingType :
    ∃ (g : Graph) (home : String → SymbolId) (placed : List SymbolEntry) (n : Nat),
      Graph.ofEntries (missingType "q.Kind.A") = .ok g ∧
        g.Hosts home (missingType "q.Kind.A") placed n ∧
        ∀ e ∈ missingType "q.Kind.A", List.Forall₂
          (AnnotationEntry.Means
            (g.byDeclaration home (missingType "q.Kind.A") (HasEnum (missingType "q.Kind.A"))))
          e.annotations (g.annotations (home e.id)) := by
  obtain ⟨g, h⟩ := exists_of_isSome (missingType "q.Kind.A") (by cbv)
  obtain ⟨home, placed, n, types⟩ := ofEntries_types h (distinctNames_missingType _)
  exact ⟨g, home, placed, n, h, types⟩

/-- The field `p.C.f` is the only symbol of its name, and all its annotations have known types. -/
theorem isUnknownType_missingType {g : Graph}
    (h : Graph.ofEntries (missingType "p.Missing.A") = .ok g) {i : SymbolId} (hi : i < g.size)
    (hname : (g.symbol i).qualifiedName = "p.C.f") {a : Annotation} (ha : a ∈ g.annotations i) :
    g.isUnknownType a = false := by
  have hall : (Graph.ofEntries (missingType "p.Missing.A")).toOption.all (fun g =>
      (List.range g.size).all fun i => (g.symbol i).qualifiedName != "p.C.f" ||
        (g.annotations i).all fun a => !g.isUnknownType a) = true := by cbv
  rw [h] at hall
  have hself := List.all_eq_true.mp hall i (List.mem_range.mpr hi)
  rw [hname] at hself
  have hknown := List.all_eq_true.mp hself a ha
  simpa using hknown

/-- Unknown entries are overlooked: an annotation of the type `p.Missing`, which is declared
unknown, has a known type behind the enum constant `p.Missing.A`. -/
theorem not_resolves_overlooked :
    ¬ ∀ (es : List SymbolEntry) (g : Graph), Graph.ofEntries es = .ok g → DistinctNames es →
      ∃ home placed n, g.Hosts home es placed n ∧
        ∀ e ∈ es, List.Forall₂ (AnnotationEntry.Means (g.byDeclaration home es fun _ => False))
          e.annotations (g.annotations (home e.id)) := by
  intro hclaim
  obtain ⟨g, h⟩ := exists_of_isSome (missingType "p.Missing.A") (by cbv)
  obtain ⟨home, placed, n, hhosts, hmeans⟩ := hclaim _ g h (distinctNames_missingType _)
  have hm : missing ∈ missingType "p.Missing.A" := by simp [missingType]
  have hf : suspect ∈ missingType "p.Missing.A" := by simp [missingType]
  have hlist := hmeans suspect hf
  cases hbs : g.annotations (home suspect.id) with
  | nil =>
    rw [hbs] at hlist
    cases hlist
  | cons b bs =>
    rw [hbs] at hlist
    obtain ⟨hb, -⟩ := List.forall₂_cons.mp hlist
    have htype : b.type = home missing.id :=
      hb.type.declared rfl missing hm rfl (named_missing _) fun _ => not_false
    have hunknown : g.isUnknownType b = true := by
      rw [isUnknownType, htype]
      exact (hhosts.declares missing hm).isUnknown
    have hknown := isUnknownType_missingType h (hhosts.declares suspect hf).lt
      (qualifiedName_of_named hhosts.declares hf (named_suspect _)) (hbs ▸ List.mem_cons_self)
    rw [hunknown] at hknown
    cases hknown

end Graph

end Nullness
