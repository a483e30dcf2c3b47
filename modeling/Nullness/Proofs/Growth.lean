import Nullness.Registry

/-!
# Registries that edits can produce

Callers name symbols by positions they were given before, so an edit may only
mention positions that exist. Registries reached by such edits are the ones that
matter, and their graphs are the ones that can be built.

- `Registry.Reachable`, `Graph.Built`: what legal edits produce from nothing.
- `Registry.apply_cases`: an edit adds symbols, or annotates one, or sets a site.
- `Graph.Sound`: owners stand before what they own, and annotations mention only
  symbols that exist. Every built graph is sound (`Graph.Built.sound`).
- `Registry.bare_run`, `Registry.annotations_run`: what a run of edits leaves alone.
-/

namespace Nullness

/-! ## Symbols mentioned by an annotation -/

mutual

/-- All symbols that a value mentions, at any depth, stand below position `n`. -/
def Value.Below (n : Nat) : Value → Prop
  | .scalar _ => True
  | .symbol id => id < n
  | .nested a => a.Below n
  | .list vs => Value.AllBelow n vs
termination_by structural v => v

/-- All symbols that the values of a list mention stand below position `n`. -/
def Value.AllBelow (n : Nat) : List Value → Prop
  | [] => True
  | v :: vs => v.Below n ∧ Value.AllBelow n vs
termination_by structural vs => vs

/-- The type of an annotation and all symbols in its arguments stand below position `n`. -/
def Annotation.Below (n : Nat) : Annotation → Prop
  | ⟨t, as⟩ => t < n ∧ Argument.AllBelow n as
termination_by structural a => a

/-- All symbols that the arguments of a list mention stand below position `n`. -/
def Argument.AllBelow (n : Nat) : List Argument → Prop
  | [] => True
  | ⟨_, v⟩ :: as => v.Below n ∧ Argument.AllBelow n as
termination_by structural as => as

end

mutual

theorem Value.Below.mono {m n : Nat} (hmn : m ≤ n) : ∀ {v : Value}, v.Below m → v.Below n
  | .scalar _, _ => trivial
  | .symbol _, h => Nat.lt_of_lt_of_le h hmn
  | .nested _, h => Annotation.Below.mono hmn h
  | .list _, h => Value.AllBelow.mono hmn h

theorem Value.AllBelow.mono {m n : Nat} (hmn : m ≤ n) :
    ∀ {vs : List Value}, Value.AllBelow m vs → Value.AllBelow n vs
  | [], _ => trivial
  | _ :: _, h => ⟨Value.Below.mono hmn h.1, Value.AllBelow.mono hmn h.2⟩

theorem Annotation.Below.mono {m n : Nat} (hmn : m ≤ n) :
    ∀ {a : Annotation}, a.Below m → a.Below n
  | ⟨_, _⟩, h => ⟨Nat.lt_of_lt_of_le h.1 hmn, Argument.AllBelow.mono hmn h.2⟩

theorem Argument.AllBelow.mono {m n : Nat} (hmn : m ≤ n) :
    ∀ {as : List Argument}, Argument.AllBelow m as → Argument.AllBelow n as
  | [], _ => trivial
  | ⟨_, _⟩ :: _, h => ⟨Value.Below.mono hmn h.1, Argument.AllBelow.mono hmn h.2⟩

end

theorem Argument.allBelow_iff {n : Nat} :
    ∀ {as : List Argument}, Argument.AllBelow n as ↔ ∀ a ∈ as, a.value.Below n
  | [] => by simp [Argument.AllBelow]
  | ⟨_, _⟩ :: _ => by
      rw [Argument.AllBelow, Argument.allBelow_iff, List.forall_mem_cons]

theorem Annotation.below_iff {n : Nat} {a : Annotation} :
    a.Below n ↔ a.type < n ∧ ∀ b ∈ a.arguments, b.value.Below n := by
  cases a with
  | mk t as => exact and_congr_right fun _ => Argument.allBelow_iff

mutual

/-- Whether a value mentions only symbols below a position can be computed. -/
def Value.decBelow (n : Nat) : ∀ v : Value, Decidable (v.Below n)
  | .scalar _ => isTrue trivial
  | .symbol id => inferInstanceAs (Decidable (id < n))
  | .nested a => a.decBelow n
  | .list vs => Value.decAllBelow n vs
termination_by structural v => v

def Value.decAllBelow (n : Nat) : ∀ vs : List Value, Decidable (Value.AllBelow n vs)
  | [] => isTrue trivial
  | v :: vs => @instDecidableAnd _ _ (v.decBelow n) (Value.decAllBelow n vs)
termination_by structural vs => vs

def Annotation.decBelow (n : Nat) : ∀ a : Annotation, Decidable (a.Below n)
  | ⟨_, as⟩ => @instDecidableAnd _ _ inferInstance (Argument.decAllBelow n as)
termination_by structural a => a

def Argument.decAllBelow (n : Nat) : ∀ as : List Argument, Decidable (Argument.AllBelow n as)
  | [] => isTrue trivial
  | ⟨_, v⟩ :: as => @instDecidableAnd _ _ (v.decBelow n) (Argument.decAllBelow n as)
termination_by structural as => as

end

instance (n : Nat) (a : Annotation) : Decidable (a.Below n) := a.decBelow n

theorem Annotation.Below.type_lt {n : Nat} {a : Annotation} (h : a.Below n) : a.type < n := by
  have hall := Annotation.below_iff.mp h
  exact hall.1

/-- An argument that is found by name mentions only symbols that its annotation mentions. -/
theorem Annotation.Below.argument? {n : Nat} {a : Annotation} (h : a.Below n) {name : String}
    {v : Value} (hv : a.argument? name = some v) : v.Below n := by
  have hall := Annotation.below_iff.mp h
  obtain ⟨b, hfind, rfl⟩ := Option.map_eq_some_iff.mp hv
  exact hall.2 b (List.mem_of_find?_eq_some hfind)

/-! ## A symbol without what is attached to it -/

/-- The part of a symbol that never changes: its annotations and site are left out. -/
def Symbol.bare (s : Symbol) : Symbol :=
  { s with annotations := [], site := none }

section Bare
variable {s s' : Symbol}

theorem Symbol.kind_of_bare (h : s'.bare = s.bare) : s'.kind = s.kind :=
  congrArg (·.kind) h

theorem Symbol.name_of_bare (h : s'.bare = s.bare) : s'.name = s.name :=
  congrArg (·.name) h

theorem Symbol.qualifiedName_of_bare (h : s'.bare = s.bare) :
    s'.qualifiedName = s.qualifiedName :=
  congrArg (·.qualifiedName) h

theorem Symbol.owner_of_bare (h : s'.bare = s.bare) : s'.owner = s.owner :=
  congrArg (·.owner) h

theorem Symbol.isUnknown_of_bare (h : s'.bare = s.bare) : s'.isUnknown = s.isUnknown :=
  congrArg (·.isUnknown) h

end Bare

namespace Registry

/-! ## Single operations, symbol by symbol -/

/-- The symbol that `push` adds for an entry. -/
def entrySymbol (r : Registry) (e : Entry) : Symbol where
  kind := e.kind
  name := e.name
  qualifiedName := r.qualify e.owner e.name
  owner := e.owner
  isUnknown := e.isUnknown
  isLocal := e.isLocal
  isSynthetic := e.isSynthetic

@[simp] theorem size_push (r : Registry) (e : Entry) : (r.push e).1.size = r.size + 1 :=
  Array.size_push _

@[simp] theorem push_snd (r : Registry) (e : Entry) : (r.push e).2 = r.size := rfl

theorem symbol_push (r : Registry) (e : Entry) (i : SymbolId) :
    (r.push e).1.symbol i = if i = r.size then r.entrySymbol e else r.symbol i := by
  show (r.symbols.push (r.entrySymbol e))[i]?.getD .nowhere = _
  rw [Array.getElem?_push]
  by_cases h : i = r.size
  · rw [if_pos h, if_pos (show i = r.symbols.size from h)]
    rfl
  · rw [if_neg h, if_neg (show ¬ i = r.symbols.size from h)]
    rfl

/-- The symbols where one of them is changed. -/
theorem getD_modify (r : Registry) (id : SymbolId) (change : Symbol → Symbol) (i : SymbolId) :
    (r.symbols.modify id change)[i]?.getD .nowhere =
      if id = i ∧ i < r.size then change (r.symbol i) else r.symbol i := by
  rw [Array.getElem?_modify]
  by_cases hid : id = i
  · by_cases hi : i < r.symbols.size
    · rw [if_pos hid, if_pos ⟨hid, hi⟩]
      simp [Graph.symbol, hi]
    · rw [if_pos hid, if_neg fun h => hi h.2]
      simp [Graph.symbol, hi]
  · rw [if_neg hid, if_neg fun h => hid h.1]
    rfl

@[simp] theorem size_annotate (r : Registry) (id : SymbolId) (a : Annotation) :
    (r.annotate id a).size = r.size :=
  Array.size_modify

theorem symbol_annotate (r : Registry) (id : SymbolId) (a : Annotation) (i : SymbolId) :
    (r.annotate id a).symbol i =
      if id = i ∧ i < r.size then { r.symbol i with annotations := r.annotations i ++ [a] }
      else r.symbol i :=
  r.getD_modify id _ i

@[simp] theorem size_setSite (r : Registry) (id : SymbolId) (site : Site) :
    (r.setSite id site).size = r.size :=
  Array.size_modify

theorem symbol_setSite (r : Registry) (id : SymbolId) (site : Site) (i : SymbolId) :
    (r.setSite id site).symbol i =
      if id = i ∧ i < r.size then { r.symbol i with site := some site } else r.symbol i :=
  r.getD_modify id _ i

theorem findKind?_lt {r : Registry} {q : String} {k : Kind} {id : SymbolId}
    (h : r.findKind? q k = some id) : id < r.size := by
  -- a position outside the row holds an unknown symbol, and those are never found
  rcases Nat.lt_or_ge id r.size with hlt | hge
  · exact hlt
  · unfold findKind? at h
    split at h
    · cases h
    · rename_i j _
      dsimp only at h
      split at h
      · rename_i hknown
        cases h
        have hnowhere : r.symbol id = .nowhere := r.toGraph.symbol_of_le hge
        rw [hnowhere] at hknown
        exact absurd hknown.2 (by decide)
      · cases h

/-! ## Adding symbols -/

/-- `r'` comes from `r` by adding symbols, each with an owner that is there before it
or with none. -/
inductive Grown (r : Registry) : Registry → Prop
  | refl : Grown r r
  | push {r' : Registry} {e : Entry} : Grown r r' → (∀ o ∈ e.owner, o < r'.size) →
      Grown r (r'.push e).1

theorem Grown.of_push {r : Registry} {e : Entry} (h : ∀ o ∈ e.owner, o < r.size) :
    Grown r (r.push e).1 :=
  .push .refl h

/-- What the find-or-create operations share: the registry grows, and the symbol that
is found or added is there afterwards. -/
def Delivers (r : Registry) (result : Registry × SymbolId) : Prop :=
  Grown r result.1 ∧ result.2 < result.1.size

theorem delivers_push {r r' : Registry} {e : Entry} (h : Grown r r')
    (ho : ∀ o ∈ e.owner, o < r'.size) : Delivers r (r'.push e) := by
  refine ⟨.push h ho, ?_⟩
  rw [size_push, push_snd]
  exact Nat.lt_succ_self _

theorem delivers_found {r r' : Registry} {q : String} {k : Kind} {id : SymbolId}
    (h : Grown r r') (hid : r'.findKind? q k = some id) : Delivers r (r', id) :=
  ⟨h, findKind?_lt hid⟩

theorem delivers_addPackage (r : Registry) (name : String) : Delivers r (r.addPackage name) := by
  unfold addPackage
  split
  · exact delivers_found .refl (by assumption)
  · exact delivers_push .refl nofun

theorem delivers_addSymbol (r : Registry) (kind : Kind) (name : String) {owner : Option SymbolId}
    (isUnknown isLocal : Bool) (ho : ∀ o ∈ owner, o < r.size) :
    Delivers r (r.addSymbol kind name owner isUnknown isLocal) := by
  unfold addSymbol
  split
  · exact delivers_addPackage r name
  · exact delivers_push .refl ho

theorem delivers_ensureClass (r : Registry) (q : String) : Delivers r (r.ensureClass q) := by
  unfold ensureClass
  split
  · exact delivers_found .refl (by assumption)
  · split
    · exact delivers_push .refl nofun
    · rename_i outer name _
      -- the enclosing class or package is found or added first
      cases hfind : r.findKind? outer .cls with
      | some id =>
          have ho : id < r.size := findKind?_lt hfind
          exact delivers_push .refl fun o h => Option.some.inj h ▸ ho
      | none =>
          have hpkg := delivers_addPackage r outer
          exact delivers_push hpkg.1 fun o h => Option.some.inj h ▸ hpkg.2

theorem delivers_enumConstant (r : Registry) (c k : String) :
    Delivers r (r.enumConstant c k) := by
  have hclass := delivers_ensureClass r c
  unfold enumConstant
  dsimp only
  split
  · exact delivers_found hclass.1 (by assumption)
  · exact delivers_push hclass.1 fun o ho => Option.some.inj ho ▸ hclass.2

/-! ## Legal edits -/

/-- What an edit may refer to: positions that exist. Packages are not added as
members, every method and variable has an owner, and only variables are local. -/
def Edit.Legal (r : Registry) : Edit → Prop
  | .package _ => True
  | .symbol _ _ owner _ _ => ∀ o ∈ owner, o < r.size
  | .member kind _ owner isLocal =>
      (∀ o ∈ owner, o < r.size) ∧ kind ≠ .pkg ∧ (owner = none → kind = .cls) ∧
        (isLocal = true → kind = .var)
  | .unknown _ => True
  | .ensureClass _ => True
  | .enumConstant _ _ => True
  | .annotate id a => id < r.size ∧ a.Below r.size
  | .setSite id _ => id < r.size

instance (r : Registry) : ∀ e : Edit, Decidable (e.Legal r)
  | .package _ => isTrue trivial
  | .symbol _ _ owner _ _ => inferInstanceAs (Decidable (∀ o ∈ owner, o < r.size))
  | .member kind _ owner isLocal =>
      inferInstanceAs (Decidable ((∀ o ∈ owner, o < r.size) ∧ kind ≠ .pkg ∧
        (owner = none → kind = .cls) ∧ (isLocal = true → kind = .var)))
  | .unknown _ => isTrue trivial
  | .ensureClass _ => isTrue trivial
  | .enumConstant _ _ => isTrue trivial
  | .annotate id a => inferInstanceAs (Decidable (id < r.size ∧ a.Below r.size))
  | .setSite id _ => inferInstanceAs (Decidable (id < r.size))

/-- All that an edit can do: add symbols, annotate one, or say where one is declared. -/
theorem apply_cases {r : Registry} {e : Edit} (h : e.Legal r) :
    Grown r (r.apply e).1 ∨
    (∃ id a, e = .annotate id a ∧ a.Below r.size ∧ (r.apply e).1 = r.annotate id a) ∨
    (∃ id site, e = .setSite id site ∧ (r.apply e).1 = r.setSite id site) := by
  cases e with
  | package name => exact Or.inl (delivers_addPackage r name).1
  | symbol kind name owner isUnknown isLocal =>
      exact Or.inl (delivers_addSymbol r kind name isUnknown isLocal h).1
  | member kind name owner isLocal => exact Or.inl (Grown.of_push h.1)
  | unknown name => exact Or.inl (Grown.of_push nofun)
  | ensureClass q => exact Or.inl (delivers_ensureClass r q).1
  | enumConstant c k => exact Or.inl (delivers_enumConstant r c k).1
  | annotate id a => exact Or.inr (Or.inl ⟨id, a, rfl, h.2, rfl⟩)
  | setSite id site => exact Or.inr (Or.inr ⟨id, site, rfl, rfl⟩)

/-- A registry that legal edits produce from the empty one. -/
inductive Reachable : Registry → Prop
  | empty : Reachable {}
  | apply {r : Registry} {e : Edit} : Reachable r → e.Legal r → Reachable (r.apply e).1

/-- Carries out edits in order. -/
def run (r : Registry) : List Edit → Registry
  | [] => r
  | e :: es => (r.apply e).1.run es

/-- Each of the edits is legal when its turn comes. -/
def LegalRun (r : Registry) : List Edit → Prop
  | [] => True
  | e :: es => e.Legal r ∧ (r.apply e).1.LegalRun es

instance decidableLegalRun : ∀ (r : Registry) (es : List Edit), Decidable (r.LegalRun es)
  | _, [] => isTrue trivial
  | r, e :: es => @instDecidableAnd _ _ inferInstance (decidableLegalRun (r.apply e).1 es)

theorem Reachable.run {es : List Edit} :
    ∀ {r : Registry}, r.Reachable → r.LegalRun es → (r.run es).Reachable := by
  induction es with
  | nil => exact fun hr _ => hr
  | cons e es ih => exact fun hr hes => ih (hr.apply hes.1) hes.2

/-! ## What edits leave alone -/

section Frame
variable {r r' : Registry} {i : SymbolId}

theorem Grown.size_le (h : Grown r r') : r.size ≤ r'.size := by
  induction h with
  | refl => exact Nat.le_refl _
  | push _ _ ih =>
      rw [size_push]
      exact Nat.le_succ_of_le ih

theorem Grown.symbol (h : Grown r r') (hi : i < r.size) : r'.symbol i = r.symbol i := by
  induction h with
  | refl => rfl
  | @push t e hg _ ih =>
      -- new symbols stand behind all that were there
      have hne : i ≠ t.size := Nat.ne_of_lt (Nat.lt_of_lt_of_le hi hg.size_le)
      rw [symbol_push, if_neg hne]
      exact ih

theorem bare_annotate (id : SymbolId) (a : Annotation) :
    ((r.annotate id a).symbol i).bare = (r.symbol i).bare := by
  rw [symbol_annotate]
  split <;> rfl

theorem bare_setSite (id : SymbolId) (site : Site) :
    ((r.setSite id site).symbol i).bare = (r.symbol i).bare := by
  rw [symbol_setSite]
  split <;> rfl

theorem annotations_annotate_of_ne {id : SymbolId} {a : Annotation} (h : id ≠ i) :
    (r.annotate id a).annotations i = r.annotations i := by
  unfold Graph.annotations
  rw [symbol_annotate, if_neg fun hid => h hid.1]

theorem annotations_setSite (id : SymbolId) (site : Site) :
    (r.setSite id site).annotations i = r.annotations i := by
  unfold Graph.annotations
  rw [symbol_setSite]
  split <;> rfl

theorem size_le_apply {e : Edit} (h : e.Legal r) : r.size ≤ (r.apply e).1.size := by
  rcases apply_cases h with hg | ⟨id, a, -, -, heq⟩ | ⟨id, site, -, heq⟩
  · exact hg.size_le
  · rw [heq]
    exact Nat.le_of_eq (size_annotate r id a).symm
  · rw [heq]
    exact Nat.le_of_eq (size_setSite r id site).symm

theorem bare_apply {e : Edit} (h : e.Legal r) (hi : i < r.size) :
    ((r.apply e).1.symbol i).bare = (r.symbol i).bare := by
  rcases apply_cases h with hg | ⟨id, a, -, -, heq⟩ | ⟨id, site, -, heq⟩
  · rw [hg.symbol hi]
  · rw [heq, bare_annotate]
  · rw [heq, bare_setSite]

theorem annotations_apply {e : Edit} (h : e.Legal r) (hi : i < r.size)
    (hne : ∀ a, e ≠ .annotate i a) : (r.apply e).1.annotations i = r.annotations i := by
  rcases apply_cases h with hg | ⟨id, a, he, -, heq⟩ | ⟨id, site, -, heq⟩
  · exact congrArg Symbol.annotations (hg.symbol hi)
  · have hid : id ≠ i := fun h' => hne a (h' ▸ he)
    rw [heq, annotations_annotate_of_ne hid]
  · rw [heq, annotations_setSite]

/-- A run never changes what a symbol is. -/
theorem bare_run {es : List Edit} : ∀ {r : Registry}, r.LegalRun es → i < r.size →
    ((r.run es).symbol i).bare = (r.symbol i).bare := by
  induction es with
  | nil => exact fun _ _ => rfl
  | cons e es ih =>
      intro r hes hi
      have hi' : i < (r.apply e).1.size := Nat.lt_of_lt_of_le hi (size_le_apply hes.1)
      exact (ih hes.2 hi').trans (bare_apply hes.1 hi)

/-- A run changes the annotations of a symbol only where it annotates that symbol. -/
theorem annotations_run {es : List Edit} : ∀ {r : Registry}, r.LegalRun es → i < r.size →
    (∀ a, Edit.annotate i a ∉ es) → (r.run es).annotations i = r.annotations i := by
  induction es with
  | nil => exact fun _ _ _ => rfl
  | cons e es ih =>
      intro r hes hi hne
      have hi' : i < (r.apply e).1.size := Nat.lt_of_lt_of_le hi (size_le_apply hes.1)
      have hhead : ∀ a, e ≠ .annotate i a := fun a h => hne a (h ▸ List.mem_cons_self)
      have htail : ∀ a, Edit.annotate i a ∉ es := fun a h => hne a (List.mem_cons_of_mem _ h)
      exact (ih hes.2 hi' htail).trans (annotations_apply hes.1 hi hhead)

end Frame

end Registry

/-! ## Soundness -/

/-- What every built graph satisfies: owners stand before what they own, and
annotations mention only symbols of the graph. -/
structure Graph.Sound (g : Graph) : Prop where
  owner_lt : ∀ i o, (g.symbol i).owner = some o → o < i
  below : ∀ i, ∀ a ∈ g.annotations i, a.Below g.size

namespace Registry

variable {r r' : Registry}

theorem sound_empty : ({} : Registry).Sound := by
  have hnowhere : ∀ i, ({} : Registry).symbol i = .nowhere :=
    fun i => Graph.symbol_of_le _ (Nat.zero_le i)
  refine ⟨fun i o ho => ?_, fun i a ha => ?_⟩
  · rw [hnowhere] at ho
    cases ho
  · rw [Graph.annotations, hnowhere] at ha
    cases ha

theorem sound_push {e : Entry} (hr : r.Sound) (ho : ∀ o ∈ e.owner, o < r.size) :
    (r.push e).1.Sound := by
  refine ⟨fun i o h => ?_, fun i a h => ?_⟩
  · rw [symbol_push] at h
    split at h
    · rename_i hi
      exact hi ▸ ho o h
    · exact hr.owner_lt i o h
  · rw [Graph.annotations, symbol_push] at h
    split at h
    · cases h
    · rw [size_push]
      exact (hr.below i a h).mono (Nat.le_succ _)

theorem Grown.sound (h : Grown r r') (hr : r.Sound) : r'.Sound := by
  induction h with
  | refl => exact hr
  | push _ ho ih => exact sound_push ih ho

theorem sound_annotate (hr : r.Sound) {id : SymbolId} {a : Annotation} (ha : a.Below r.size) :
    (r.annotate id a).Sound := by
  refine ⟨fun i o h => ?_, fun i b h => ?_⟩
  · rw [Symbol.owner_of_bare (bare_annotate id a)] at h
    exact hr.owner_lt i o h
  · rw [Graph.annotations, symbol_annotate] at h
    rw [size_annotate]
    split at h
    · rcases List.mem_append.mp h with hb | hb
      · exact hr.below i b hb
      · rw [List.mem_singleton.mp hb]
        exact ha
    · exact hr.below i b h

theorem sound_setSite (hr : r.Sound) (id : SymbolId) (site : Site) : (r.setSite id site).Sound := by
  refine ⟨fun i o h => ?_, fun i b h => ?_⟩
  · rw [Symbol.owner_of_bare (bare_setSite id site)] at h
    exact hr.owner_lt i o h
  · rw [annotations_setSite] at h
    rw [size_setSite]
    exact hr.below i b h

theorem sound_apply {e : Edit} (hr : r.Sound) (h : e.Legal r) : (r.apply e).1.Sound := by
  rcases apply_cases h with hg | ⟨id, a, -, ha, heq⟩ | ⟨id, site, -, heq⟩
  · exact hg.sound hr
  · rw [heq]
    exact sound_annotate hr ha
  · rw [heq]
    exact sound_setSite hr id site

theorem Reachable.sound (h : r.Reachable) : r.Sound := by
  induction h with
  | empty => exact sound_empty
  | apply _ he ih => exact sound_apply ih he

end Registry

/-- The graph of a registry that legal edits produce. -/
def Graph.Built (g : Graph) : Prop :=
  ∃ r : Registry, r.Reachable ∧ r.toGraph = g

theorem Graph.Built.sound {g : Graph} (h : g.Built) : g.Sound := by
  obtain ⟨r, hr, rfl⟩ := h
  exact hr.sound

end Nullness
