import Nullness.Proofs.Acceptance
import Nullness.Proofs.Supply

/-!
# What annotations are read as

An entry says what an annotation looks like and leaves the symbols to be found by name. An
annotation is what the entry means if it looks that way and every name in it was read as the
symbol that it stands for. Which symbols these are is said by a `Reading`.

Symbols are added while annotations are read. So what references lead to is proved one by
one (`Registry.Interprets`) under an invariant of the registry, which may depend on the
annotations around them, and from that follows what whole annotations are read as
(`Registry.Interprets.annotation`).
-/

namespace Nullness

namespace Document

/-! ## Names in annotations -/

mutual

/-- The names of types in a value, at any depth, each with whether it is marked unresolved. -/
def ValueEntry.types : ValueEntry → List (String × Bool)
  | .scalar _ => []
  | .constant _ => []
  | .nested a => a.types
  | .list vs => ValueEntry.allTypes vs
termination_by structural v => v

/-- The names of types in the values of a list. -/
def ValueEntry.allTypes : List ValueEntry → List (String × Bool)
  | [] => []
  | v :: vs => v.types ++ ValueEntry.allTypes vs
termination_by structural vs => vs

/-- The names of types in an annotation, that of its own type first. -/
def AnnotationEntry.types : AnnotationEntry → List (String × Bool)
  | ⟨name, isUnresolved, as⟩ => (name, isUnresolved) :: ArgumentEntry.allTypes as
termination_by structural a => a

/-- The names of types in the arguments of a list. -/
def ArgumentEntry.allTypes : List ArgumentEntry → List (String × Bool)
  | [] => []
  | ⟨_, v⟩ :: as => v.types ++ ArgumentEntry.allTypes as
termination_by structural as => as

end

/-- A name in an annotation: that of a type, which may be marked unresolved, or that of an enum
constant. -/
inductive Reference
  | type (name : String) (isUnresolved : Bool)
  | constant (name : String)

/-- The types around the arguments of an annotation: its own, unless that is marked unresolved,
and the types around the annotation. -/
def enter (name : String) (isUnresolved : Bool) (around : List String) : List String :=
  if isUnresolved then around else name :: around

mutual

/-- The names in a value, at any depth, each with the types of the annotations around it,
innermost first. -/
def ValueEntry.references (around : List String) : ValueEntry → List (List String × Reference)
  | .scalar _ => []
  | .constant c => [(around, .constant c)]
  | .nested a => a.references around
  | .list vs => ValueEntry.allReferences around vs
termination_by structural v => v

/-- The names in the values of a list. -/
def ValueEntry.allReferences (around : List String) :
    List ValueEntry → List (List String × Reference)
  | [] => []
  | v :: vs => v.references around ++ ValueEntry.allReferences around vs
termination_by structural vs => vs

/-- The names in an annotation, in the order in which they are read. -/
def AnnotationEntry.references (around : List String) :
    AnnotationEntry → List (List String × Reference)
  | ⟨name, isUnresolved, as⟩ => (around, .type name isUnresolved) ::
      ArgumentEntry.allReferences (enter name isUnresolved around) as
termination_by structural a => a

/-- The names in the arguments of a list. -/
def ArgumentEntry.allReferences (around : List String) :
    List ArgumentEntry → List (List String × Reference)
  | [] => []
  | ⟨_, v⟩ :: as => v.references around ++ ArgumentEntry.allReferences around as
termination_by structural as => as

end

/-- The name is one of these types or of these constants. -/
def Reference.Among (types : List (String × Bool)) (constants : List Mention) : Reference → Prop
  | .type name isUnresolved => (name, isUnresolved) ∈ types
  | .constant name => ∃ m ∈ constants, m.2 = name

theorem Reference.Among.mono {types types' : List (String × Bool)}
    {constants constants' : List Mention} (ht : types ⊆ types')
    (hc : ∀ m ∈ constants, ∃ m' ∈ constants', m'.2 = m.2) {x : Reference}
    (h : x.Among types constants) : x.Among types' constants' := by
  cases x with
  | type name isUnresolved => exact ht h
  | constant name =>
    obtain ⟨m, hm, rfl⟩ := h
    exact hc m hm

theorem Reference.Among.append_left {types types' : List (String × Bool)}
    {constants constants' : List Mention} {x : Reference} (h : x.Among types constants) :
    x.Among (types ++ types') (constants ++ constants') :=
  h.mono (List.subset_append_left _ _) fun m hm => ⟨m, List.mem_append_left _ hm, rfl⟩

theorem Reference.Among.append_right {types types' : List (String × Bool)}
    {constants constants' : List Mention} {x : Reference} (h : x.Among types' constants') :
    x.Among (types ++ types') (constants ++ constants') :=
  h.mono (List.subset_append_right _ _) fun m hm => ⟨m, List.mem_append_right _ hm, rfl⟩

mutual

theorem ValueEntry.among_references (around : List String) :
    ∀ v : ValueEntry, ∀ m ∈ v.references around, m.2.Among v.types v.constants
  | .scalar _, _, hm => absurd hm List.not_mem_nil
  | .constant c, m, hm => by
      rw [ValueEntry.references, List.mem_singleton] at hm
      subst hm
      exact ⟨_, List.mem_singleton_self _, rfl⟩
  | .nested a, m, hm => AnnotationEntry.among_references around a m hm
  | .list vs, m, hm => ValueEntry.among_allReferences around vs m hm

theorem ValueEntry.among_allReferences (around : List String) :
    ∀ vs : List ValueEntry, ∀ m ∈ ValueEntry.allReferences around vs,
      m.2.Among (ValueEntry.allTypes vs) (ValueEntry.allConstants vs)
  | [], _, hm => absurd hm List.not_mem_nil
  | v :: vs, m, hm => by
      rw [ValueEntry.allReferences, List.mem_append] at hm
      rw [ValueEntry.allTypes, ValueEntry.allConstants]
      rcases hm with hm | hm
      · exact (ValueEntry.among_references around v m hm).append_left
      · exact (ValueEntry.among_allReferences around vs m hm).append_right

/-- The names in an annotation are those of its types and of its constants. -/
theorem AnnotationEntry.among_references (around : List String) :
    ∀ a : AnnotationEntry, ∀ m ∈ a.references around, m.2.Among a.types a.constants
  | ⟨name, isUnresolved, as⟩, m, hm => by
      rw [AnnotationEntry.references, List.mem_cons] at hm
      rcases hm with rfl | hm
      · exact List.mem_cons_self
      · exact (ArgumentEntry.among_allReferences _ as m hm).mono (List.subset_cons_self _ _)
          fun m hm => ⟨m, hm, rfl⟩

theorem ArgumentEntry.among_allReferences (around : List String) :
    ∀ as : List ArgumentEntry, ∀ m ∈ ArgumentEntry.allReferences around as,
      m.2.Among (ArgumentEntry.allTypes as) (ArgumentEntry.allConstants as)
  | [], _, hm => absurd hm List.not_mem_nil
  | ⟨name, v⟩ :: as, m, hm => by
      rw [ArgumentEntry.allReferences, List.mem_append] at hm
      rw [ArgumentEntry.allTypes, ArgumentEntry.allConstants]
      rcases hm with hm | hm
      · -- an argument is told with each constant, which does not change what is mentioned
        have hv := ValueEntry.among_references around v m hm
        exact (hv.mono (List.Subset.refl _) fun c hc =>
          ⟨Mention.within name c, List.mem_map_of_mem hc, rfl⟩).append_left
      · exact (ArgumentEntry.among_allReferences around as m hm).append_right

end

/-- The name of a type occurs in the annotations of some entry. -/
def HasType (es : List SymbolEntry) (name : String) (isUnresolved : Bool) : Prop :=
  ∃ e ∈ es, ∃ a ∈ e.annotations, (name, isUnresolved) ∈ a.types

/-- The enum constant occurs in the annotations of some entry. -/
def HasConstant (es : List SymbolEntry) (constant : String) : Prop :=
  ∃ e ∈ es, ∃ a ∈ e.annotations, ∃ m ∈ a.constants, m.2 = constant

theorem hasType_iff {es : List SymbolEntry} {name : String} {isUnresolved : Bool} :
    HasType es name isUnresolved ↔
      (name, isUnresolved) ∈ es.flatMap fun e => e.annotations.flatMap (·.types) := by
  simp [HasType]

theorem hasConstant_iff {es : List SymbolEntry} {constant : String} :
    HasConstant es constant ↔
      ∃ m ∈ es.flatMap (·.constants), m.2 = constant := by
  constructor
  · rintro ⟨e, he, a, ha, m, hm, hc⟩
    exact ⟨m, List.mem_flatMap.mpr ⟨e, he, List.mem_flatMap.mpr ⟨a, ha, hm⟩⟩, hc⟩
  · rintro ⟨m, hm, hc⟩
    obtain ⟨e, he, hm⟩ := List.mem_flatMap.mp hm
    obtain ⟨a, ha, hm⟩ := List.mem_flatMap.mp hm
    exact ⟨e, he, a, ha, m, hm, hc⟩

instance (es : List SymbolEntry) (name : String) (isUnresolved : Bool) :
    Decidable (HasType es name isUnresolved) :=
  decidable_of_iff _ hasType_iff.symm

instance (es : List SymbolEntry) (constant : String) : Decidable (HasConstant es constant) :=
  decidable_of_iff _ hasConstant_iff.symm

/-! ## Meaning -/

/-- What names stand for: the name of a type, which may be marked unresolved, and the name of
an enum constant. -/
structure Reading where
  type : String → Bool → SymbolId → Prop
  constant : String → SymbolId → Prop

mutual

/-- The value that an entry means when names are read by `R`. -/
inductive ValueEntry.Means (R : Reading) : ValueEntry → Value → Prop
  | scalar (s : Scalar) : ValueEntry.Means R (.scalar s) (.scalar s)
  | constant {c : String} {i : SymbolId} : R.constant c i →
      ValueEntry.Means R (.constant c) (.symbol i)
  | nested {a : AnnotationEntry} {b : Annotation} : AnnotationEntry.Means R a b →
      ValueEntry.Means R (.nested a) (.nested b)
  | list {vs : List ValueEntry} {ws : List Value} : ValueEntry.AllMean R vs ws →
      ValueEntry.Means R (.list vs) (.list ws)

/-- The values that the entries of a list mean, one for each and in their order. -/
inductive ValueEntry.AllMean (R : Reading) : List ValueEntry → List Value → Prop
  | nil : ValueEntry.AllMean R [] []
  | cons {v : ValueEntry} {w : Value} {vs : List ValueEntry} {ws : List Value} :
      ValueEntry.Means R v w → ValueEntry.AllMean R vs ws →
      ValueEntry.AllMean R (v :: vs) (w :: ws)

/-- The annotation that an entry means: its type is what the name of the type is read as. -/
inductive AnnotationEntry.Means (R : Reading) : AnnotationEntry → Annotation → Prop
  | mk {name : String} {isUnresolved : Bool} {t : SymbolId} {as : List ArgumentEntry}
      {bs : List Argument} : R.type name isUnresolved t → ArgumentEntry.AllMean R as bs →
      AnnotationEntry.Means R ⟨name, isUnresolved, as⟩ ⟨t, bs⟩

/-- The arguments that the entries of a list mean, with their names and in their order. -/
inductive ArgumentEntry.AllMean (R : Reading) : List ArgumentEntry → List Argument → Prop
  | nil : ArgumentEntry.AllMean R [] []
  | cons {name : String} {v : ValueEntry} {w : Value} {as : List ArgumentEntry}
      {bs : List Argument} : ValueEntry.Means R v w → ArgumentEntry.AllMean R as bs →
      ArgumentEntry.AllMean R (⟨name, v⟩ :: as) (⟨name, w⟩ :: bs)

end

theorem AnnotationEntry.Means.type {R : Reading} {a : AnnotationEntry} {b : Annotation}
    (h : a.Means R b) : R.type a.type a.isUnresolved b.type := by
  cases h with
  | mk htype _ => exact htype

theorem AnnotationEntry.Means.arguments {R : Reading} {a : AnnotationEntry} {b : Annotation}
    (h : a.Means R b) : ArgumentEntry.AllMean R a.arguments b.arguments := by
  cases h with
  | mk _ hargs => exact hargs

theorem AnnotationEntry.mem_types (a : AnnotationEntry) : (a.type, a.isUnresolved) ∈ a.types := by
  cases a with
  | mk name isUnresolved as => exact List.mem_cons_self

mutual

theorem ValueEntry.Means.mono {R R' : Reading} (htype : ∀ q u i, R.type q u i → R'.type q u i)
    (hconstant : ∀ c i, R.constant c i → R'.constant c i) {v : ValueEntry} {w : Value}
    (h : v.Means R w) : v.Means R' w := by
  cases h with
  | scalar s => exact .scalar s
  | constant hc => exact .constant (hconstant _ _ hc)
  | nested ha => exact .nested (ha.mono htype hconstant)
  | list hvs => exact .list (hvs.mono htype hconstant)

theorem ValueEntry.AllMean.mono {R R' : Reading} (htype : ∀ q u i, R.type q u i → R'.type q u i)
    (hconstant : ∀ c i, R.constant c i → R'.constant c i) {vs : List ValueEntry}
    {ws : List Value} (h : ValueEntry.AllMean R vs ws) : ValueEntry.AllMean R' vs ws := by
  cases h with
  | nil => exact .nil
  | cons hv hvs => exact .cons (hv.mono htype hconstant) (hvs.mono htype hconstant)

/-- What is meant by a reading is meant by any weaker one. -/
theorem AnnotationEntry.Means.mono {R R' : Reading}
    (htype : ∀ q u i, R.type q u i → R'.type q u i)
    (hconstant : ∀ c i, R.constant c i → R'.constant c i) {a : AnnotationEntry} {b : Annotation}
    (h : a.Means R b) : a.Means R' b := by
  cases h with
  | mk ht has => exact .mk (htype _ _ _ ht) (has.mono htype hconstant)

theorem ArgumentEntry.AllMean.mono {R R' : Reading}
    (htype : ∀ q u i, R.type q u i → R'.type q u i)
    (hconstant : ∀ c i, R.constant c i → R'.constant c i) {as : List ArgumentEntry}
    {bs : List Argument} (h : ArgumentEntry.AllMean R as bs) : ArgumentEntry.AllMean R' as bs := by
  cases h with
  | nil => exact .nil
  | cons hv has => exact .cons (hv.mono htype hconstant) (has.mono htype hconstant)

end

/-- The symbols that names are read as stand below position `n`. -/
structure Reading.Below (R : Reading) (n : Nat) : Prop where
  type : ∀ {q u i}, R.type q u i → i < n
  constant : ∀ {c i}, R.constant c i → i < n

mutual

theorem ValueEntry.below_of_means {R : Reading} {n : Nat} (hR : R.Below n) {v : ValueEntry}
    {w : Value} (h : v.Means R w) : w.Below n := by
  cases h with
  | scalar s => exact trivial
  | constant hc => exact hR.constant hc
  | nested ha => exact AnnotationEntry.below_of_means hR ha
  | list hvs => exact ValueEntry.allBelow_of_allMean hR hvs

theorem ValueEntry.allBelow_of_allMean {R : Reading} {n : Nat} (hR : R.Below n)
    {vs : List ValueEntry} {ws : List Value} (h : ValueEntry.AllMean R vs ws) :
    Value.AllBelow n ws := by
  cases h with
  | nil => exact trivial
  | cons hv hvs => exact ⟨ValueEntry.below_of_means hR hv, ValueEntry.allBelow_of_allMean hR hvs⟩

/-- An annotation mentions no other symbols than those that names are read as. -/
theorem AnnotationEntry.below_of_means {R : Reading} {n : Nat} (hR : R.Below n)
    {a : AnnotationEntry} {b : Annotation} (h : a.Means R b) : b.Below n := by
  cases h with
  | mk ht has => exact ⟨hR.type ht, ArgumentEntry.allBelow_of_allMean hR has⟩

theorem ArgumentEntry.allBelow_of_allMean {R : Reading} {n : Nat} (hR : R.Below n)
    {as : List ArgumentEntry} {bs : List Argument} (h : ArgumentEntry.AllMean R as bs) :
    Argument.AllBelow n bs := by
  cases h with
  | nil => exact trivial
  | cons hv has => exact ⟨ValueEntry.below_of_means hR hv, ArgumentEntry.allBelow_of_allMean hR has⟩

end

end Document

open Document

namespace Registry

/-! ## Reading references -/

/-- References `M`, each within types of annotations around it, are read as `R` says, in the
graph `g` that comes out in the end. Reading one of them keeps the invariant `I`, which may
depend on the types around. -/
structure Interprets (I : List String → Registry → Prop) (g : Graph)
    (M : List String → Reference → Prop) (R : Reading) : Prop where
  type : ∀ {r : Registry} {around : List String} {q : String} {u : Bool}, I around r →
    M around (.type q u) → I (enter q u around) (r.typeOf q u).1 ∧
      ((r.typeOf q u).1.Extends g → R.type q u (r.typeOf q u).2)
  constant : ∀ {r : Registry} {around : List String} {c front last : String}, I around r →
    M around (.constant c) → splitLastDot c = some (front, last) →
      I around (r.enumConstant front last).1 ∧
        ((r.enumConstant front last).1.Extends g → R.constant c (r.enumConstant front last).2)
  leave : ∀ {r : Registry} {around : List String} (q : String) (u : Bool),
    I (enter q u around) r → I around r

/-- Something was read that has a meaning in the graph `g` that comes out in the end: the
registry has grown under the invariant `I`. -/
structure Reads (I : Registry → Prop) (g : Graph) (r r' : Registry) (means : Prop) : Prop where
  invariant : I r'
  grown : Grown r r'
  meaning : r'.Extends g → means

theorem grown_typeOf (r : Registry) (q : String) (isUnresolved : Bool) :
    Grown r (r.typeOf q isUnresolved).1 := by
  cases isUnresolved with
  | true => exact .of_push nofun
  | false =>
      rcases typeOf_cases r q with ⟨id, -, heq⟩ | ⟨-, id, -, -, heq⟩ | ⟨-, -, heq⟩
      · rw [heq]
        exact .refl
      · rw [heq]
        exact .refl
      · rw [heq]
        exact (delivers_ensureClass r q).1

namespace Interprets

variable {I : List String → Registry → Prop} {g : Graph} {M : List String → Reference → Prop}
variable {R : Reading}

mutual

theorem value (h : Interprets I g M R) {r r' : Registry} {around : List String}
    (hr : I around r) :
    ∀ {v : ValueEntry} {w : Value}, (∀ m ∈ v.references around, M m.1 m.2) →
      r.value v = .ok (r', w) → Reads (I around) g r r' (v.Means R w)
  | .scalar s, w, _, hread => by
      rw [Registry.value] at hread
      cases hread
      exact ⟨hr, .refl, fun _ => .scalar s⟩
  | .constant c, w, hM, hread => by
      rw [Registry.value] at hread
      split at hread
      · cases hread
      · next front last hsplit =>
        cases hread
        have hc : M around (.constant c) := hM _ (List.mem_singleton_self _)
        obtain ⟨hkept, hmeans⟩ := h.constant hr hc hsplit
        exact ⟨hkept, (delivers_enumConstant r front last).1, fun hg => .constant (hmeans hg)⟩
  | .nested a, w, hM, hread => by
      rw [Registry.value] at hread
      split at hread
      · cases hread
      · next hread' =>
        cases hread
        have ha := h.annotation hr hM hread'
        exact ⟨ha.invariant, ha.grown, fun hg => .nested (ha.meaning hg)⟩
  | .list vs, w, hM, hread => by
      rw [Registry.value] at hread
      split at hread
      · cases hread
      · next hread' =>
        cases hread
        have hvs := h.values hr hM hread'
        exact ⟨hvs.invariant, hvs.grown, fun hg => .list (hvs.meaning hg)⟩

theorem values (h : Interprets I g M R) {r r' : Registry} {around : List String}
    (hr : I around r) :
    ∀ {vs : List ValueEntry} {ws : List Value},
      (∀ m ∈ ValueEntry.allReferences around vs, M m.1 m.2) → r.values vs = .ok (r', ws) →
      Reads (I around) g r r' (ValueEntry.AllMean R vs ws)
  | [], ws, _, hread => by
      rw [Registry.values] at hread
      cases hread
      exact ⟨hr, .refl, fun _ => .nil⟩
  | v :: vs, ws, hM, hread => by
      rw [ValueEntry.allReferences, List.forall_mem_append] at hM
      rw [Registry.values] at hread
      split at hread
      · cases hread
      · next hread₁ =>
        split at hread
        · cases hread
        · next hread₂ =>
          cases hread
          have hv := h.value hr hM.1 hread₁
          have hvs := h.values hv.invariant hM.2 hread₂
          exact ⟨hvs.invariant, hv.grown.trans hvs.grown, fun hg =>
            .cons (hv.meaning (hvs.grown.extends.trans hg)) (hvs.meaning hg)⟩

/-- Annotations are read as what their entries mean. -/
theorem annotation (h : Interprets I g M R) {r r' : Registry} {around : List String}
    (hr : I around r) :
    ∀ {a : AnnotationEntry} {b : Annotation}, (∀ m ∈ a.references around, M m.1 m.2) →
      r.annotation a = .ok (r', b) → Reads (I around) g r r' (a.Means R b)
  | ⟨name, isUnresolved, as⟩, b, hM, hread => by
      rw [AnnotationEntry.references, List.forall_mem_cons] at hM
      rw [Registry.annotation] at hread
      split at hread
      next r₁ t htype =>
      have hr₁ : (r.typeOf name isUnresolved).1 = r₁ := congrArg Prod.fst htype
      have ht : (r.typeOf name isUnresolved).2 = t := congrArg Prod.snd htype
      split at hread
      · cases hread
      · next hread' =>
        cases hread
        obtain ⟨hkept, hmeans⟩ := h.type hr hM.1
        rw [hr₁] at hkept hmeans
        rw [ht] at hmeans
        have hgrown : Grown r r₁ := hr₁ ▸ grown_typeOf r name isUnresolved
        have has := h.arguments hkept hM.2 hread'
        exact ⟨h.leave name isUnresolved has.invariant, hgrown.trans has.grown, fun hg =>
          .mk (hmeans (has.grown.extends.trans hg)) (has.meaning hg)⟩

theorem arguments (h : Interprets I g M R) {r r' : Registry} {around : List String}
    (hr : I around r) :
    ∀ {as : List ArgumentEntry} {bs : List Argument},
      (∀ m ∈ ArgumentEntry.allReferences around as, M m.1 m.2) →
      r.arguments as = .ok (r', bs) →
      Reads (I around) g r r' (ArgumentEntry.AllMean R as bs)
  | [], bs, _, hread => by
      rw [Registry.arguments] at hread
      cases hread
      exact ⟨hr, .refl, fun _ => .nil⟩
  | ⟨name, v⟩ :: as, bs, hM, hread => by
      rw [ArgumentEntry.allReferences, List.forall_mem_append] at hM
      rw [Registry.arguments] at hread
      split at hread
      · cases hread
      · next hread₁ =>
        split at hread
        · cases hread
        · next hread₂ =>
          cases hread
          have hv := h.value hr hM.1 hread₁
          have has := h.arguments hv.invariant hM.2 hread₂
          exact ⟨has.invariant, hv.grown.trans has.grown, fun hg =>
            .cons (hv.meaning (has.grown.extends.trans hg)) (has.meaning hg)⟩

end

end Interprets

end Registry

end Nullness
