import Nullness.Loading
import Nullness.Proofs.Lookup

/-!
# Symbols that are referred to

Annotations refer to types and enum constants by name. A name that leads to nothing yet is
supplied with a symbol, and if need be with one for what encloses it. So a reference always
leads to a symbol of that name, and it leads there ever after.

- `Graph.Extends`: what symbols are is never changed.
- `Graph.Knows`: a position holds a known symbol of some kind and name.
- `Registry.Exact.find?_mono`: a name leads ever after to the symbol that it led to once.
- `Registry.Supplied`: all that supplying can do to a registry.
- `Registry.Exact.namesClass_typeOf`, `Registry.Exact.knows_enumConstant`: what references
  lead to.
-/

namespace Nullness

/-! ## What symbols are -/

/-- All symbols are still there, and they are the same but for what is attached to them. -/
structure Graph.Extends (g g' : Graph) : Prop where
  size_le : g.size ≤ g'.size
  bare : ∀ i, i < g.size → (g'.symbol i).bare = (g.symbol i).bare

/-- The position holds a symbol of this kind that is known under this qualified name. -/
structure Graph.Knows (g : Graph) (k : Kind) (q : String) (i : SymbolId) : Prop where
  lt : i < g.size
  kind : (g.symbol i).kind = k
  known : (g.symbol i).isUnknown = false
  name : (g.symbol i).qualifiedName = q

/-- The position holds a class of this qualified name, known or not. -/
structure Graph.NamesClass (g : Graph) (q : String) (i : SymbolId) : Prop where
  lt : i < g.size
  kind : (g.symbol i).kind = .cls
  name : (g.symbol i).qualifiedName = q

section Extends
variable {g g' g'' : Graph} {k : Kind} {q : String} {i : SymbolId}

theorem Graph.Extends.refl (g : Graph) : g.Extends g :=
  ⟨Nat.le_refl _, fun _ _ => rfl⟩

theorem Graph.Extends.trans (h : g.Extends g') (h' : g'.Extends g'') : g.Extends g'' :=
  ⟨Nat.le_trans h.size_le h'.size_le,
    fun i hi => (h'.bare i (Nat.lt_of_lt_of_le hi h.size_le)).trans (h.bare i hi)⟩

theorem Graph.Knows.mono (h : g.Knows k q i) (hg : g.Extends g') : g'.Knows k q i := by
  have hbare := hg.bare i h.lt
  exact ⟨Nat.lt_of_lt_of_le h.lt hg.size_le, (Symbol.kind_of_bare hbare).trans h.kind,
    (Symbol.isUnknown_of_bare hbare).trans h.known,
    (Symbol.qualifiedName_of_bare hbare).trans h.name⟩

theorem Graph.Knows.namesClass (h : g.Knows .cls q i) : g.NamesClass q i :=
  ⟨h.lt, h.kind, h.name⟩

theorem Graph.NamesClass.mono (h : g.NamesClass q i) (hg : g.Extends g') : g'.NamesClass q i := by
  have hbare := hg.bare i h.lt
  exact ⟨Nat.lt_of_lt_of_le h.lt hg.size_le, (Symbol.kind_of_bare hbare).trans h.kind,
    (Symbol.qualifiedName_of_bare hbare).trans h.name⟩

end Extends

namespace Registry

variable {r r' : Registry} {q : String} {i : SymbolId} {k : Kind}

theorem Grown.trans {r'' : Registry} (h : Grown r r') (h' : Grown r' r'') : Grown r r'' := by
  induction h' with
  | refl => exact h
  | push _ ho ih => exact .push ih ho

/-- Nothing is attached to a symbol that is added. -/
theorem Grown.annotations (h : Grown r r') (i : SymbolId) :
    r'.annotations i = r.annotations i := by
  induction h with
  | refl => rfl
  | @push t e _ _ ih =>
      rw [← ih, Graph.annotations, symbol_push]
      split
      · next hi => exact (t.annotations_of_le (Nat.le_of_eq hi.symm)).symm
      · rfl

theorem Grown.site (h : Grown r r') (i : SymbolId) :
    (r'.symbol i).site = (r.symbol i).site := by
  induction h with
  | refl => rfl
  | @push t e _ _ ih =>
      rw [← ih, symbol_push]
      split
      · next hi =>
        rw [t.symbol_of_le (Nat.le_of_eq hi.symm)]
        rfl
      · rfl

theorem Grown.extends (h : Grown r r') : r.Extends r'.toGraph :=
  ⟨h.size_le, fun _ hi => congrArg Symbol.bare (h.symbol hi)⟩

theorem extends_push (r : Registry) (e : Entry) : r.Extends (r.push e).1.toGraph := by
  refine ⟨?_, fun i hi => ?_⟩
  · rw [size_push]
    exact Nat.le_succ _
  · rw [symbol_push, if_neg (Nat.ne_of_lt hi)]

theorem extends_annotate (r : Registry) (id : SymbolId) (a : Annotation) :
    r.Extends (r.annotate id a).toGraph :=
  ⟨Nat.le_of_eq (size_annotate r id a).symm, fun _ _ => bare_annotate id a⟩

theorem extends_setSite (r : Registry) (id : SymbolId) (site : Site) :
    r.Extends (r.setSite id site).toGraph :=
  ⟨Nat.le_of_eq (size_setSite r id site).symm, fun _ _ => bare_setSite id site⟩

theorem symbol_push_size (r : Registry) (e : Entry) :
    (r.push e).1.symbol r.size = r.entrySymbol e := by
  rw [symbol_push, if_pos rfl]

theorem knows_push {e : Entry} (hu : e.isUnknown = false) (hk : e.kind = k)
    (hq : r.qualify e.owner e.name = q) : (r.push e).1.Knows k q (r.push e).2 := by
  have hnew : (r.push e).1.symbol (r.push e).2 = r.entrySymbol e := symbol_push_size r e
  refine ⟨?_, ?_, ?_, ?_⟩
  · rw [size_push]
    exact Nat.lt_succ_self _
  · rw [hnew]
    exact hk
  · rw [hnew]
    exact hu
  · rw [hnew]
    exact hq

theorem Exact.knows_of_find? (h : r.Exact) (hq : r.find? q = some i) :
    r.Knows (r.symbol i).kind q i := by
  obtain ⟨hi, hlt, -⟩ := h.find?_eq_some_iff.mp hq
  obtain ⟨hknown, hname⟩ := Symbol.isKnownAs_iff.mp hi
  exact ⟨hlt, rfl, hknown, hname⟩

/-- The name of a known symbol leads somewhere. -/
theorem Exact.exists_find?_of_knows (h : r.Exact) (hi : r.Knows k q i) :
    ∃ j, r.find? q = some j := by
  cases hfind : r.find? q with
  | some j => exact ⟨j, rfl⟩
  | none =>
      have hnot := h.find?_eq_none_iff.mp hfind i hi.lt
      rw [Symbol.isKnownAs_iff.mpr ⟨hi.known, hi.name⟩] at hnot
      cases hnot

theorem Exact.knows_of_findKind? (h : r.Exact) (hq : r.findKind? q k = some i) :
    r.Knows k q i := by
  obtain ⟨hfind, rfl⟩ := h.findKind?_eq_some_iff.mp hq
  exact h.knows_of_find? hfind

/-- What is found after a symbol was added was found before, or it is that symbol. -/
theorem Exact.of_findKind?_push (h : r.Exact) {e : Entry}
    (hq : (r.push e).1.findKind? q k = some i) :
    r.findKind? q k = some i ∨
      (i = r.size ∧ e.isUnknown = false ∧ r.qualify e.owner e.name = q ∧ e.kind = k) := by
  obtain ⟨hfind, hk, hu⟩ := Registry.findKind?_eq_some_iff.mp hq
  rw [find?_push] at hfind
  cases hold : r.find? q with
  | some j =>
      rw [hold, Option.some_or] at hfind
      cases hfind
      rw [symbol_push, if_neg (Nat.ne_of_lt (h.knows_of_find? hold).lt)] at hk hu
      exact Or.inl (Registry.findKind?_eq_some_iff.mpr ⟨hold, hk, hu⟩)
  | none =>
      rw [hold, Option.none_or] at hfind
      split at hfind
      · rename_i hnew
        cases hfind
        obtain ⟨hu, hq⟩ := Symbol.isKnownAs_iff.mp hnew
        rw [symbol_push_size] at hk
        exact Or.inr ⟨rfl, hu, hq, hk⟩
      · cases hfind

/-- A symbol of another kind changes no look-up. -/
theorem Exact.findKind?_push_of_ne (h : r.Exact) {e : Entry} (hk : e.kind ≠ k) :
    (r.push e).1.findKind? q k = r.findKind? q k := by
  cases hold : r.findKind? q k with
  | some i =>
      -- the new symbol stands behind the one that is found, and its owner does not matter
      have hfind := (Registry.findKind?_eq_some_iff.mp hold).1
      have hne : i ≠ r.size := Nat.ne_of_lt (findKind?_lt hold)
      rw [Registry.findKind?_eq_some_iff, find?_push, hfind, Option.some_or, symbol_push,
        if_neg hne]
      exact ⟨rfl, (Registry.findKind?_eq_some_iff.mp hold).2⟩
  | none =>
      cases hnew : (r.push e).1.findKind? q k with
      | none => rfl
      | some i =>
          rcases h.of_findKind?_push hnew with hi | ⟨-, -, -, hk'⟩
          · rw [hold] at hi
            cases hi
          · exact absurd hk' hk

/-- A name leads ever after to the symbol that it led to once. -/
theorem Exact.find?_mono (h : r.Exact) (h' : r'.Exact) (hext : r.Extends r'.toGraph)
    (hq : r.find? q = some i) : r'.find? q = some i := by
  obtain ⟨hi, hlt, hfirst⟩ := h.find?_eq_some_iff.mp hq
  refine h'.find?_eq_some_iff.mpr ⟨?_, Nat.lt_of_lt_of_le hlt hext.size_le, fun j hj => ?_⟩
  · rw [Symbol.isKnownAs_of_bare (hext.bare i hlt)]
    exact hi
  · rw [Symbol.isKnownAs_of_bare (hext.bare j (Nat.lt_trans hj hlt))]
    exact hfirst j hj

theorem Exact.findKind?_mono (h : r.Exact) (h' : r'.Exact) (hext : r.Extends r'.toGraph)
    (hq : r.findKind? q k = some i) : r'.findKind? q k = some i := by
  obtain ⟨hfind, hkind⟩ := h.findKind?_eq_some_iff.mp hq
  refine h'.findKind?_eq_some_iff.mpr ⟨h.find?_mono h' hext hfind, ?_⟩
  rw [Symbol.kind_of_bare (hext.bare i (findKind?_lt hq)), hkind]

theorem Exact.missing_mono (h : r.Exact) (h' : r'.Exact) (hext : r.Extends r'.toGraph)
    (hq : r.unknownNames.find? q = some i) : r'.unknownNames.find? q = some i := by
  obtain ⟨hi, hlt, hfirst⟩ := h.missing_eq_some_iff.mp hq
  refine h'.missing_eq_some_iff.mpr ⟨?_, Nat.lt_of_lt_of_le hlt hext.size_le, fun j hj => ?_⟩
  · rw [Symbol.isMissingAs_of_bare (hext.bare i hlt)]
    exact hi
  · rw [Symbol.isMissingAs_of_bare (hext.bare j (Nat.lt_trans hj hlt))]
    exact hfirst j hj

/-! ## Qualified names -/

/-- What stands before and behind the last dot makes up the whole. -/
theorem eq_of_splitLastDot {s front last : String} (h : splitLastDot s = some (front, last)) :
    front ++ "." ++ last = s := by
  unfold splitLastDot at h
  dsimp only at h
  split at h
  · cases h
  · rename_i c cs hdrop
    cases h
    have hc : c = '.' := by
      have hhead := List.head?_dropWhile_not (· ≠ '.') s.toList.reverse
      rw [hdrop] at hhead
      simpa using hhead
    have hwhole := List.takeWhile_append_dropWhile (p := (· ≠ '.')) (l := s.toList.reverse)
    rw [hdrop, hc] at hwhole
    generalize s.toList.reverse.takeWhile (· ≠ '.') = ds at hwhole ⊢
    apply String.toList_injective
    rw [← List.reverse_reverse s.toList, ← hwhole]
    simp

theorem qualify_of_splitLastDot {s front last : String} {o : SymbolId}
    (h : splitLastDot s = some (front, last)) (ho : (r.symbol o).qualifiedName = front) :
    r.qualify (some o) last = s := by
  rw [qualify, ho]
  exact eq_of_splitLastDot h

/-! ## Find or create -/

theorem addPackage_cases (r : Registry) (q : String) :
    (∃ id, r.findKind? q .pkg = some id ∧ r.addPackage q = (r, id)) ∨
      (r.findKind? q .pkg = none ∧ r.addPackage q = r.push { kind := .pkg, name := q }) := by
  rw [addPackage]
  cases h : r.findKind? q .pkg with
  | some id => exact Or.inl ⟨id, rfl, rfl⟩
  | none => exact Or.inr ⟨rfl, rfl⟩

theorem Exact.knows_addPackage (h : r.Exact) (q : String) :
    (r.addPackage q).1.Knows .pkg q (r.addPackage q).2 := by
  rcases addPackage_cases r q with ⟨id, hfind, heq⟩ | ⟨-, heq⟩
  · rw [heq]
    exact h.knows_of_findKind? hfind
  · rw [heq]
    exact knows_push rfl rfl rfl

theorem Exact.findKind?_addPackage_of_ne (h : r.Exact) {p : String} (hk : Kind.pkg ≠ k) :
    (r.addPackage p).1.findKind? q k = r.findKind? q k := by
  rcases addPackage_cases r p with ⟨id, -, heq⟩ | ⟨-, heq⟩
  · rw [heq]
  · rw [heq]
    exact h.findKind?_push_of_ne hk

/-- What `ensureClass` starts from when it adds the class: the registry itself, or the
registry with the package that the name begins with, if there is no such class. -/
def Opened (r : Registry) (q : String) (r' : Registry) : Prop :=
  r' = r ∨ ∃ outer name, splitLastDot q = some (outer, name) ∧ r.findKind? outer .cls = none ∧
    r' = (r.addPackage outer).1

theorem Exact.ensureClass_cases (h : r.Exact) (q : String) :
    (∃ id, r.findKind? q .cls = some id ∧ r.ensureClass q = (r, id)) ∨
      (r.findKind? q .cls = none ∧ ∃ (r' : Registry) (e : Entry), r.Opened q r' ∧
        (∀ o ∈ e.owner, o < r'.size) ∧ e.kind = .cls ∧ e.isUnknown = false ∧
        e.isSynthetic = true ∧ (∀ outer name, splitLastDot q = some (outer, name) → e.name = name) ∧
        r'.qualify e.owner e.name = q ∧ r.ensureClass q = r'.push e) := by
  rw [ensureClass]
  cases hq : r.findKind? q .cls with
  | some id => exact Or.inl ⟨id, rfl, rfl⟩
  | none =>
      right
      refine ⟨rfl, ?_⟩
      cases hsplit : splitLastDot q with
      | none =>
          exact ⟨r, { kind := .cls, name := q, isSynthetic := true }, Or.inl rfl, nofun, rfl, rfl,
            rfl, nofun, rfl, rfl⟩
      | some parts =>
          obtain ⟨outer, name⟩ := parts
          cases houter : r.findKind? outer .cls with
          | some o =>
              have ho := h.knows_of_findKind? houter
              refine ⟨r, { kind := .cls, name, owner := some o, isSynthetic := true }, Or.inl rfl,
                ?_, rfl, rfl, rfl, ?_, qualify_of_splitLastDot hsplit ho.name, ?_⟩
              · exact fun p hp => Option.some.inj hp ▸ ho.lt
              · rintro _ _ ⟨⟩
                rfl
              · simp only [houter]
          | none =>
              have hpkg := h.knows_addPackage outer
              refine ⟨(r.addPackage outer).1,
                { kind := .cls, name, owner := some (r.addPackage outer).2, isSynthetic := true },
                Or.inr ⟨outer, name, hsplit, houter, rfl⟩, ?_, rfl, rfl, rfl, ?_,
                qualify_of_splitLastDot hsplit hpkg.name, ?_⟩
              · exact fun p hp => Option.some.inj hp ▸ hpkg.lt
              · rintro _ _ ⟨⟩
                rfl
              · simp only [houter]

theorem Exact.knows_ensureClass (h : r.Exact) (q : String) :
    (r.ensureClass q).1.Knows .cls q (r.ensureClass q).2 := by
  rcases h.ensureClass_cases q with ⟨id, hfind, heq⟩ | ⟨-, r', e, -, -, hk, hu, -, -, hq, heq⟩
  · rw [heq]
    exact h.knows_of_findKind? hfind
  · rw [heq]
    exact knows_push hu hk hq

/-- The class that is given is the one that is found afterwards. -/
theorem Exact.eq_of_findKind?_ensureClass (h : r.Exact)
    (hq : (r.ensureClass q).1.findKind? q .cls = some i) : i = (r.ensureClass q).2 := by
  rcases h.ensureClass_cases q with
    ⟨id, hfind, heq⟩ | ⟨hnone, r', e, hopened, -, hk, -, -, -, -, heq⟩
  · rw [heq, hfind] at hq
    rw [heq]
    exact (Option.some.inj hq).symm
  · -- at most a package is added before, and that is not found as a class
    have hbefore : r'.Exact ∧ r'.findKind? q .cls = none := by
      rcases hopened with rfl | ⟨outer, name, -, -, rfl⟩
      · exact ⟨h, hnone⟩
      · refine ⟨h.grown (delivers_addPackage r outer).1, ?_⟩
        rw [h.findKind?_addPackage_of_ne (by decide), hnone]
    rw [heq] at hq ⊢
    rcases hbefore.1.of_findKind?_push hq with hi | ⟨hi, -⟩
    · rw [hbefore.2] at hi
      cases hi
    · exact hi

theorem enumConstant_cases (r : Registry) (c name : String) :
    (∃ id, (r.ensureClass c).1.findKind?
        ((r.ensureClass c).1.qualify (some (r.ensureClass c).2) name) .var = some id ∧
      r.enumConstant c name = ((r.ensureClass c).1, id)) ∨
    ((r.ensureClass c).1.findKind?
        ((r.ensureClass c).1.qualify (some (r.ensureClass c).2) name) .var = none ∧
      r.enumConstant c name = (r.ensureClass c).1.push
        { kind := .var, name, owner := some (r.ensureClass c).2, isSynthetic := true }) := by
  rw [enumConstant]
  dsimp only
  split
  · next id h => exact Or.inl ⟨id, h, rfl⟩
  · next h => exact Or.inr ⟨h, rfl⟩

/-- The constant is found or added under the name of its class, a dot and its own name. -/
theorem Exact.knows_enumConstant_append (h : r.Exact) (c name : String) :
    (r.enumConstant c name).1.Knows .var (c ++ "." ++ name) (r.enumConstant c name).2 := by
  have hclass := h.knows_ensureClass c
  have hexact : (r.ensureClass c).1.Exact := h.grown (delivers_ensureClass r c).1
  have hname : (r.ensureClass c).1.qualify (some (r.ensureClass c).2) name = c ++ "." ++ name := by
    rw [qualify, hclass.name]
  rcases enumConstant_cases r c name with ⟨id, hfind, heq⟩ | ⟨-, heq⟩
  · rw [heq]
    rw [hname] at hfind
    exact hexact.knows_of_findKind? hfind
  · rw [heq]
    exact knows_push rfl rfl hname

/-- The constant that is written with its class is found or added under its whole name. -/
theorem Exact.knows_enumConstant (h : r.Exact) {c front last : String}
    (hc : splitLastDot c = some (front, last)) :
    (r.enumConstant front last).1.Knows .var c (r.enumConstant front last).2 := by
  have hknows := h.knows_enumConstant_append front last
  rw [eq_of_splitLastDot hc] at hknows
  exact hknows

/-! ## Types of annotations -/

/-- A class is declared under the name: a known one is found, or else the first symbol that
was declared unknown is a class. -/
theorem typeOf_cases (r : Registry) (q : String) :
    (∃ id, r.findKind? q .cls = some id ∧ r.typeOf q false = (r, id)) ∨
    (r.findKind? q .cls = none ∧ ∃ id, r.unknownNames.find? q = some id ∧
      (r.symbol id).kind = .cls ∧ r.typeOf q false = (r, id)) ∨
    (r.findKind? q .cls = none ∧
      (∀ id, r.unknownNames.find? q = some id → (r.symbol id).kind ≠ .cls) ∧
      r.typeOf q false = r.ensureClass q) := by
  rw [typeOf, findDeclaredClass?]
  cases hfind : r.findKind? q .cls with
  | some id => exact Or.inl ⟨id, rfl, rfl⟩
  | none =>
      right
      cases hmissing : r.unknownNames.find? q with
      | none => exact Or.inr ⟨rfl, nofun, rfl⟩
      | some id =>
          by_cases hk : (r.symbol id).kind = .cls
          · refine Or.inl ⟨rfl, id, rfl, hk, ?_⟩
            simp [hk]
          · refine Or.inr ⟨rfl, fun j hj => Option.some.inj hj ▸ hk, ?_⟩
            simp [hk]

theorem typeOf_unresolved (r : Registry) (q : String) :
    r.typeOf q true = r.push { kind := .cls, name := q, isUnknown := true, isSynthetic := true } :=
  rfl

/-- A type is a class of the name that is written. -/
theorem Exact.namesClass_typeOf (h : r.Exact) (q : String) (isUnresolved : Bool) :
    (r.typeOf q isUnresolved).1.NamesClass q (r.typeOf q isUnresolved).2 := by
  cases isUnresolved with
  | true =>
      rw [typeOf_unresolved, push_snd]
      refine ⟨?_, ?_, ?_⟩
      · rw [size_push]
        exact Nat.lt_succ_self _
      · rw [symbol_push_size]
        rfl
      · rw [symbol_push_size]
        rfl
  | false =>
      rcases typeOf_cases r q with ⟨id, hfind, heq⟩ | ⟨-, id, hmissing, hk, heq⟩ | ⟨-, -, heq⟩
      · rw [heq]
        exact (h.knows_of_findKind? hfind).namesClass
      · obtain ⟨hid, hlt, -⟩ := h.missing_eq_some_iff.mp hmissing
        rw [heq]
        exact ⟨hlt, hk, (Symbol.isMissingAs_iff.mp hid).2.2⟩
      · rw [heq]
        exact (h.knows_ensureClass q).namesClass

theorem Exact.eq_of_findKind?_typeOf (h : r.Exact)
    (hq : (r.typeOf q false).1.findKind? q .cls = some i) : i = (r.typeOf q false).2 := by
  rcases typeOf_cases r q with ⟨id, hfind, heq⟩ | ⟨hnone, id, -, -, heq⟩ | ⟨-, -, heq⟩
  · rw [heq, hfind] at hq
    rw [heq]
    exact (Option.some.inj hq).symm
  · rw [heq, hnone] at hq
    cases hq
  · rw [heq] at hq ⊢
    exact h.eq_of_findKind?_ensureClass hq

end Registry

/-! ## Supplying -/

/-- What is supplied: a package, or else a symbol that is referred to and not declared. If it
is known, it is of a kind and name that `wanted` tells, and its own name stands behind the
last dot. -/
structure Symbol.IsSupply (wanted : Kind → String → Prop) (s : Symbol) : Prop where
  undeclared : s.kind = .pkg ∨ s.isSynthetic = true
  wanted : s.isUnknown = false → wanted s.kind s.qualifiedName
  name : s.isUnknown = false → s.kind ≠ .pkg → ∀ front last,
    Registry.splitLastDot s.qualifiedName = some (front, last) → s.name = last

theorem Symbol.IsSupply.of_bare {wanted : Kind → String → Prop} {s s' : Symbol}
    (h : s.IsSupply wanted) (hbare : s'.bare = s.bare) : s'.IsSupply wanted := by
  have hsynthetic : s'.isSynthetic = s.isSynthetic := congrArg (·.isSynthetic) hbare
  refine ⟨?_, ?_, ?_⟩
  · rw [Symbol.kind_of_bare hbare, hsynthetic]
    exact h.undeclared
  · rw [Symbol.isUnknown_of_bare hbare, Symbol.kind_of_bare hbare,
      Symbol.qualifiedName_of_bare hbare]
    exact h.wanted
  · rw [Symbol.isUnknown_of_bare hbare, Symbol.kind_of_bare hbare,
      Symbol.qualifiedName_of_bare hbare, Symbol.name_of_bare hbare]
    exact h.name

/-- `r` holds what `base` holds, and behind that only what was supplied. -/
structure Registry.Supplied (wanted : Kind → String → Prop) (base r : Registry) : Prop where
  exact : r.Exact
  keeps : base.Extends r.toGraph
  supply : ∀ i, base.size ≤ i → i < r.size → (r.symbol i).IsSupply wanted

namespace Registry

variable {r base : Registry} {q : String} {i : SymbolId} {k : Kind}
variable {wanted : Kind → String → Prop}

theorem Exact.supplied (h : r.Exact) : Supplied wanted r r :=
  ⟨h, .refl _, fun _ hi hlt => absurd hlt (Nat.not_lt.mpr hi)⟩

namespace Supplied

theorem push (h : Supplied wanted base r) {e : Entry}
    (he : (r.entrySymbol e).IsSupply wanted) : Supplied wanted base (r.push e).1 := by
  refine ⟨h.exact.push e, h.keeps.trans (extends_push r e), fun i hi hlt => ?_⟩
  rw [symbol_push]
  split
  · exact he
  · next hne =>
    rw [size_push] at hlt
    exact h.supply i hi (Nat.lt_of_le_of_ne (Nat.le_of_lt_succ hlt) hne)

/-- What is attached to symbols does not matter. -/
theorem of_bare {r' : Registry} (h : Supplied wanted base r) (hexact : r'.Exact)
    (hsize : r'.size = r.size) (hbare : ∀ i, (r'.symbol i).bare = (r.symbol i).bare) :
    Supplied wanted base r' := by
  refine ⟨hexact, h.keeps.trans ⟨Nat.le_of_eq hsize.symm, fun i _ => hbare i⟩,
    fun i hi hlt => ?_⟩
  rw [hsize] at hlt
  exact (h.supply i hi hlt).of_bare (hbare i)

theorem annotate (h : Supplied wanted base r) (id : SymbolId) (a : Annotation) :
    Supplied wanted base (r.annotate id a) :=
  h.of_bare (h.exact.annotate id a) (size_annotate r id a) fun _ => bare_annotate id a

theorem setSite (h : Supplied wanted base r) (id : SymbolId) (site : Site) :
    Supplied wanted base (r.setSite id site) :=
  h.of_bare (h.exact.setSite id site) (size_setSite r id site) fun _ => bare_setSite id site

theorem addUnknown (h : Supplied wanted base r) (name : String) :
    Supplied wanted base (r.addUnknown name).1 :=
  h.push ⟨Or.inr rfl, nofun, nofun⟩

theorem addPackage (h : Supplied wanted base r)
    (hw : r.findKind? q .pkg = none → wanted .pkg q) : Supplied wanted base (r.addPackage q).1 := by
  rcases addPackage_cases r q with ⟨id, -, heq⟩ | ⟨hnone, heq⟩
  · rw [heq]
    exact h
  · rw [heq]
    exact h.push ⟨Or.inl rfl, fun _ => hw hnone, fun _ hk => absurd rfl hk⟩

/-- A class is supplied only under a name that leads to no class yet, and a package only
when its class is. -/
theorem ensureClass (h : Supplied wanted base r)
    (hw : r.findKind? q .cls = none → wanted .cls q ∧
      ∀ outer name, splitLastDot q = some (outer, name) → r.findKind? outer .cls = none →
        wanted .pkg outer) :
    Supplied wanted base (r.ensureClass q).1 := by
  rcases h.exact.ensureClass_cases q with
    ⟨id, -, heq⟩ | ⟨hnone, r', e, hopened, -, hk, hu, hs, hname, hq, heq⟩
  · rw [heq]
    exact h
  · obtain ⟨hcls, hpkg⟩ := hw hnone
    have hbefore : Supplied wanted base r' := by
      rcases hopened with rfl | ⟨outer, name, hsplit, houter, rfl⟩
      · exact h
      · exact h.addPackage fun _ => hpkg outer name hsplit houter
    rw [heq]
    refine hbefore.push ⟨Or.inr hs, fun _ => ?_, fun _ _ front last hsplit => ?_⟩
    · show wanted e.kind (r'.qualify e.owner e.name)
      rw [hk, hq]
      exact hcls
    · exact hname front last (hq ▸ hsplit)

theorem enumConstant (h : Supplied wanted base r) {c front last : String}
    (hc : splitLastDot c = some (front, last))
    (hw : r.findKind? front .cls = none → wanted .cls front ∧
      ∀ outer name, splitLastDot front = some (outer, name) → r.findKind? outer .cls = none →
        wanted .pkg outer)
    (hvar : wanted .var c) : Supplied wanted base (r.enumConstant front last).1 := by
  have hname := qualify_of_splitLastDot hc (h.exact.knows_ensureClass front).name
  rcases enumConstant_cases r front last with ⟨id, -, heq⟩ | ⟨-, heq⟩
  · rw [heq]
    exact h.ensureClass hw
  · rw [heq]
    refine (h.ensureClass hw).push ⟨Or.inr rfl, fun _ => ?_, fun _ _ front' last' hsplit => ?_⟩
    · show wanted .var ((r.ensureClass front).1.qualify (some (r.ensureClass front).2) last)
      rw [hname]
      exact hvar
    · have hsplit : splitLastDot c = some (front', last') := hname ▸ hsplit
      rw [hc] at hsplit
      cases hsplit
      rfl

/-- Reading a type supplies a class only where none is declared. -/
theorem typeOf (h : Supplied wanted base r) (isUnresolved : Bool)
    (hw : r.findKind? q .cls = none →
      (∀ id, r.unknownNames.find? q = some id → (r.symbol id).kind ≠ .cls) → wanted .cls q ∧
      ∀ outer name, splitLastDot q = some (outer, name) → r.findKind? outer .cls = none →
        wanted .pkg outer) :
    Supplied wanted base (r.typeOf q isUnresolved).1 := by
  cases isUnresolved with
  | true => exact h.addUnknown q
  | false =>
      rcases typeOf_cases r q with
        ⟨id, -, heq⟩ | ⟨-, id, -, -, heq⟩ | ⟨hnone, hmissing, heq⟩
      · rw [heq]
        exact h
      · rw [heq]
        exact h
      · rw [heq]
        exact h.ensureClass fun _ => hw hnone hmissing

/-! ### What is found later -/

/-- A known symbol was there at the beginning, or it was supplied as wanted. -/
theorem of_knows (h : Supplied wanted base r) (hi : r.Knows k q i) :
    base.Knows k q i ∨ (base.size ≤ i ∧ wanted k q) := by
  rcases Nat.lt_or_ge i base.size with hlt | hge
  · have hbare := h.keeps.bare i hlt
    exact Or.inl ⟨hlt, (Symbol.kind_of_bare hbare).symm.trans hi.kind,
      (Symbol.isUnknown_of_bare hbare).symm.trans hi.known,
      (Symbol.qualifiedName_of_bare hbare).symm.trans hi.name⟩
  · have hw := (h.supply i hge hi.lt).wanted hi.known
    rw [hi.kind, hi.name] at hw
    exact Or.inr ⟨hge, hw⟩

end Supplied

end Registry

end Nullness
