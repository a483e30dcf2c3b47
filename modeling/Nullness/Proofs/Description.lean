import Nullness.Proofs.Reading

/-!
# What is attached to symbols

When all entries are declared, each of them attaches its site and its annotations to its
symbol. Reading annotations may supply further symbols, and to those nothing is attached. So
what a symbol ends up with is what its entries say, in the order of the document.

- `Registry.describeAll_induct`: what attaching preserves.
- `Registry.Described`, `Registry.described_describeAll`: what is attached in the end.
-/

namespace Nullness

open Document

namespace Registry

variable {g : Graph} {r r' : Registry} {done : Declared} {es : List SymbolEntry}

/-! ## Names of types and constants -/

/-- The name of a type stands for a class of that name, an enum constant for a known variable. -/
def byName (g : Graph) : Reading where
  type q _ i := g.NamesClass q i
  constant c i := g.Knows .var c i

theorem below_byName (g : Graph) : (byName g).Below g.size :=
  ⟨fun h => h.lt, fun h => h.lt⟩

theorem Reachable.typeOf (h : r.Reachable) (q : String) (isUnresolved : Bool) :
    (r.typeOf q isUnresolved).1.Reachable := by
  cases isUnresolved with
  | true => exact h.apply (e := .unknown q) trivial
  | false =>
      rcases typeOf_cases r q with ⟨id, -, heq⟩ | ⟨-, id, -, -, heq⟩ | ⟨-, -, heq⟩
      · rw [heq]
        exact h
      · rw [heq]
        exact h
      · rw [heq]
        exact h.apply (e := .ensureClass q) trivial

theorem Exact.typeOf (h : r.Exact) (q : String) (isUnresolved : Bool) :
    (r.typeOf q isUnresolved).1.Exact :=
  h.grown (grown_typeOf r q isUnresolved)

theorem Exact.enumConstant (h : r.Exact) (c k : String) : (r.enumConstant c k).1.Exact :=
  h.grown (delivers_enumConstant r c k).1

/-- References are read by name, under any invariant that they keep and that makes indexes
exact. -/
theorem interprets_byName {I : Registry → Prop} (g : Graph) (hexact : ∀ {r}, I r → r.Exact)
    (htype : ∀ {r} q u, I r → I (r.typeOf q u).1)
    (hconstant : ∀ {r} c k, I r → I (r.enumConstant c k).1) :
    Interprets (fun _ => I) g (fun _ _ => True) (byName g) := by
  refine ⟨fun {r _ q u} hr _ => ⟨htype q u hr, fun hg => ?_⟩,
    fun {r _ c front last} hr _ hc => ⟨hconstant front last hr, fun hg => ?_⟩, fun _ _ hr => hr⟩
  · exact ((hexact hr).namesClass_typeOf q u).mono hg
  · exact ((hexact hr).knows_enumConstant hc).mono hg

/-- Reading an annotation is a legal run, and it mentions only symbols that are there. -/
theorem Reachable.annotation (h : r.Reachable) {a : AnnotationEntry} {b : Annotation}
    (hread : r.annotation a = .ok (r', b)) : r'.Reachable ∧ Grown r r' ∧ b.Below r'.size := by
  have hI := interprets_byName (I := Reachable) r'.toGraph (fun hr => hr.exact)
    (fun q u hr => hr.typeOf q u) (fun c k hr => hr.apply (e := .enumConstant c k) trivial)
  have htrue : ∀ m ∈ a.references [], True := fun _ _ => trivial
  have hreads := hI.annotation h htrue hread
  exact ⟨hreads.invariant, hreads.grown,
    AnnotationEntry.below_of_means (below_byName r'.toGraph) (hreads.meaning (.refl _))⟩

/-! ## What attaching preserves -/

theorem annotateAll_induct {P : Registry → Prop} {id : SymbolId} {as : List AnnotationEntry}
    (hannotate : ∀ {r r'} a b, a ∈ as → P r → r.annotation a = .ok (r', b) → P (r'.annotate id b))
    (hr : P r) (h : r.annotateAll id as = .ok r') : P r' := by
  induction as generalizing r with
  | nil =>
    cases h
    exact hr
  | cons a as ih =>
    rw [annotateAll] at h
    split at h
    · cases h
    · next hread =>
      refine ih (fun a b ha => hannotate a b (List.mem_cons_of_mem _ ha)) ?_ h
      exact hannotate a _ List.mem_cons_self hr hread

/-- An entry sets the site of its symbol, if it has one to set, then its annotations are read
and attached one after the other. -/
theorem describeAll_cons {e : SymbolEntry} {id : SymbolId} (hid : done.lookup e.id = some id)
    (h : r.describeAll done (e :: es) = .ok r') :
    ∃ s, (e.site.elim r (r.setSite id)).annotateAll id e.annotations = .ok s ∧
      s.describeAll done es = .ok r' := by
  simp only [describeAll, hid] at h
  split at h
  · cases h
  · next s hread =>
    refine ⟨s, ?_, h⟩
    rw [← hread]
    cases e.site <;> rfl

/-- What is preserved by setting the site of a declared symbol, and by attaching an annotation
to it after reading that, is preserved by describing entries. -/
theorem describeAll_induct {P : Registry → Prop}
    (hsite : ∀ {r} e id site, e ∈ es → done.lookup e.id = some id → e.site = some site → P r →
      P (r.setSite id site))
    (hannotate : ∀ {r r'} e id a b, e ∈ es → done.lookup e.id = some id → a ∈ e.annotations →
      P r → r.annotation a = .ok (r', b) → P (r'.annotate id b))
    (hr : P r) (h : r.describeAll done es = .ok r') : P r' := by
  induction es generalizing r with
  | nil =>
    cases h
    exact hr
  | cons e es ih =>
    have hsite' : ∀ {r} e id site, e ∈ es → done.lookup e.id = some id → e.site = some site →
        P r → P (r.setSite id site) := fun e id site he =>
      hsite e id site (List.mem_cons_of_mem _ he)
    have hannotate' : ∀ {r r'} e id a b, e ∈ es → done.lookup e.id = some id →
        a ∈ e.annotations → P r → r.annotation a = .ok (r', b) → P (r'.annotate id b) :=
      fun e id a b he => hannotate e id a b (List.mem_cons_of_mem _ he)
    cases hid : done.lookup e.id with
    | none =>
      rw [describeAll, hid] at h
      exact ih hsite' hannotate' hr h
    | some id =>
      obtain ⟨s, hread, h⟩ := describeAll_cons hid h
      refine ih hsite' hannotate' ?_ h
      refine annotateAll_induct
        (fun a b ha => hannotate e id a b List.mem_cons_self hid ha) ?_ hread
      cases hs : e.site with
      | none => exact hr
      | some site => exact hsite e id site List.mem_cons_self hid hs hr

theorem Reachable.describeAll (hr : r.Reachable)
    (hdone : ∀ e ∈ es, ∀ id, done.lookup e.id = some id → id < r.size)
    (h : r.describeAll done es = .ok r') : r'.Reachable ∧ r.Extends r'.toGraph := by
  refine describeAll_induct (P := fun s => s.Reachable ∧ r.Extends s.toGraph) ?_ ?_
    ⟨hr, .refl _⟩ h
  · rintro s e id site he hid - ⟨hs, hext⟩
    have hlt : id < s.size := Nat.lt_of_lt_of_le (hdone e he id hid) hext.size_le
    exact ⟨hs.apply (e := .setSite id site) hlt, hext.trans (extends_setSite s id site)⟩
  · rintro s s' e id a b he hid - ⟨hs, hext⟩ hread
    obtain ⟨hs', hgrown, hbelow⟩ := hs.annotation hread
    have hext' := hext.trans hgrown.extends
    have hlt : id < s'.size := Nat.lt_of_lt_of_le (hdone e he id hid) hext'.size_le
    exact ⟨hs'.apply (e := .annotate id b) ⟨hlt, hbelow⟩, hext'.trans (extends_annotate s' id b)⟩

/-! ## What is attached in the end -/

/-- The invariant does not depend on what is attached to symbols. -/
structure Tolerates (I : Registry → Prop) : Prop where
  annotate : ∀ {r} id a, I r → I (r.annotate id a)
  setSite : ∀ {r} id site, I r → I (r.setSite id site)

theorem tolerates_exact : Tolerates Exact :=
  ⟨fun id a h => h.annotate id a, fun id site h => h.setSite id site⟩

/-- `r'` comes from `r` by attaching annotations to one symbol. -/
structure Annotated (I : Registry → Prop) (g : Graph) (R : Reading) (id : SymbolId)
    (as : List AnnotationEntry) (r r' : Registry) : Prop where
  invariant : I r'
  keeps : r.Extends r'.toGraph
  site : ∀ i, (r'.symbol i).site = (r.symbol i).site
  others : ∀ i, i ≠ id → r'.annotations i = r.annotations i
  own : r'.Extends g → ∃ bs, r'.annotations id = r.annotations id ++ bs ∧
    List.Forall₂ (AnnotationEntry.Means R) as bs

/-- `r'` comes from `r` by attaching to symbols what entries say. -/
structure Described (I : Registry → Prop) (g : Graph) (R : Reading) (home : String → SymbolId)
    (es : List SymbolEntry) (r r' : Registry) : Prop where
  invariant : I r'
  keeps : r.Extends r'.toGraph
  site : ∀ i, (r'.symbol i).site =
    ((es.filter (home ·.id = i)).filterMap (·.site)).getLast?.or (r.symbol i).site
  annotations : r'.Extends g → ∀ i, ∃ bs, r'.annotations i = r.annotations i ++ bs ∧
    List.Forall₂ (AnnotationEntry.Means R) ((es.filter (home ·.id = i)).flatMap (·.annotations)) bs

section Describe
variable {I : List String → Registry → Prop} {M : List String → Reference → Prop} {R : Reading}

theorem annotations_annotate_self {id : SymbolId} (hid : id < r.size) (a : Annotation) :
    (r.annotate id a).annotations id = r.annotations id ++ [a] := by
  rw [Graph.annotations, symbol_annotate, if_pos ⟨rfl, hid⟩]

theorem site_annotate (r : Registry) (id : SymbolId) (a : Annotation) (i : SymbolId) :
    ((r.annotate id a).symbol i).site = (r.symbol i).site := by
  rw [symbol_annotate]
  split <;> rfl

theorem site_setSite (r : Registry) {id : SymbolId} (hid : id < r.size) (site : Site)
    (i : SymbolId) : ((r.setSite id site).symbol i).site =
      if id = i then some site else (r.symbol i).site := by
  rw [symbol_setSite]
  by_cases h : id = i
  · rw [if_pos ⟨h, h ▸ hid⟩, if_pos h]
  · rw [if_neg fun h' => h h'.1, if_neg h]

theorem annotated_annotateAll (hI : Interprets I g M R) (htol : Tolerates (I []))
    {id : SymbolId} {as : List AnnotationEntry}
    (hM : ∀ a ∈ as, ∀ m ∈ a.references [], M m.1 m.2) (hid : id < r.size) (hr : I [] r)
    (h : r.annotateAll id as = .ok r') : Annotated (I []) g R id as r r' := by
  induction as generalizing r with
  | nil =>
    cases h
    exact ⟨hr, .refl _, fun _ => rfl, fun _ _ => rfl, fun _ => ⟨[], by simp, .nil⟩⟩
  | cons a as ih =>
    rw [List.forall_mem_cons] at hM
    rw [annotateAll] at h
    split at h
    · cases h
    · next s b hread =>
      -- what is read later only adds symbols, so what was read keeps its meaning
      have ha := hI.annotation hr hM.1 hread
      have hid' : id < s.size := Nat.lt_of_lt_of_le hid ha.grown.size_le
      have hlast := ih hM.2 (by rwa [size_annotate]) (htol.annotate id b ha.invariant) h
      have hstep : s.Extends (s.annotate id b).toGraph := extends_annotate s id b
      refine ⟨hlast.invariant, (ha.grown.extends.trans hstep).trans hlast.keeps, fun i => ?_,
        fun i hi => ?_, fun hg => ?_⟩
      · rw [hlast.site, site_annotate, ha.grown.site]
      · rw [hlast.others i hi, annotations_annotate_of_ne (Ne.symm hi), ha.grown.annotations]
      · obtain ⟨bs, hbs, hmeans⟩ := hlast.own hg
        refine ⟨b :: bs, ?_, .cons (ha.meaning (hstep.trans (hlast.keeps.trans hg))) hmeans⟩
        rw [hbs, annotations_annotate_self hid', ha.grown.annotations, List.append_assoc,
          List.singleton_append]

/-- Setting a site, if there is one to set. -/
theorem site_of_option {I : Registry → Prop} (htol : Tolerates I) {id : SymbolId}
    (hid : id < r.size) (hr : I r) (site : Option Site)
    (h : site.elim r (r.setSite id) = r') :
    I r' ∧ r.Extends r'.toGraph ∧ (∀ i, r'.annotations i = r.annotations i) ∧
      ∀ i, (r'.symbol i).site =
        if id = i then site.or (r.symbol i).site else (r.symbol i).site := by
  subst h
  cases site with
  | none => exact ⟨hr, .refl _, fun _ => rfl, fun i => (ite_self _).symm⟩
  | some site =>
    exact ⟨htol.setSite id site hr, extends_setSite r id site,
      fun _ => annotations_setSite id site, site_setSite r hid site⟩

/-- Describing entries attaches to each symbol what its entries say, in their order. -/
theorem described_describeAll (hI : Interprets I g M R) (htol : Tolerates (I []))
    {home : String → SymbolId} (hdone : ∀ e ∈ es, done.lookup e.id = some (home e.id))
    (hM : ∀ e ∈ es, ∀ a ∈ e.annotations, ∀ m ∈ a.references [], M m.1 m.2)
    (hlt : ∀ e ∈ es, home e.id < r.size) (hr : I [] r) (h : r.describeAll done es = .ok r') :
    Described (I []) g R home es r r' := by
  induction es generalizing r with
  | nil =>
    cases h
    exact ⟨hr, .refl _, fun _ => rfl, fun _ _ => ⟨[], by simp, .nil⟩⟩
  | cons e es ih =>
    rw [List.forall_mem_cons] at hdone hM hlt
    obtain ⟨s, hread, h⟩ := describeAll_cons hdone.1 h
    generalize hr₁ : e.site.elim r (r.setSite (home e.id)) = r₁ at hread
    obtain ⟨hkept, hext, hannotations, hsite⟩ := site_of_option htol hlt.1 hr e.site hr₁
    have he := annotated_annotateAll hI htol hM.1
      (Nat.lt_of_lt_of_le hlt.1 hext.size_le) hkept hread
    have hext' := hext.trans he.keeps
    have hlast := ih hdone.2 hM.2
      (fun o ho => Nat.lt_of_lt_of_le (hlt.2 o ho) hext'.size_le) he.invariant h
    refine ⟨hlast.invariant, hext'.trans hlast.keeps, fun i => ?_, fun hg i => ?_⟩
    · rw [hlast.site, he.site, hsite]
      by_cases hi : home e.id = i
      · rw [if_pos hi, List.filter_cons_of_pos (by simpa using hi)]
        cases hs : e.site with
        | none => simp [hs]
        | some site => simp [hs, List.getLast?_cons, Option.or_some]
      · rw [if_neg hi, List.filter_cons_of_neg (by simpa using hi)]
    · obtain ⟨cs, hcs, hmeans⟩ := hlast.annotations hg i
      by_cases hi : home e.id = i
      · subst hi
        obtain ⟨bs, hbs, hmeans'⟩ := he.own (hlast.keeps.trans hg)
        refine ⟨bs ++ cs, ?_, ?_⟩
        · rw [hcs, hbs, hannotations, List.append_assoc]
        · rw [List.filter_cons_of_pos (by simp), List.flatMap_cons]
          exact List.rel_append hmeans' hmeans
      · refine ⟨cs, ?_, ?_⟩
        · rw [hcs, he.others i (Ne.symm hi), hannotations]
        · rw [List.filter_cons_of_neg (by simpa using hi)]
          exact hmeans

end Describe

end Registry

end Nullness
