import Mathlib.Data.List.Find
import Nullness.Proofs.Growth

/-!
# What look-ups find

Both indexes of a registry are exact: a name leads to the first symbol that carries it,
in one index among the known symbols, in the other among those that were declared
unknown. What a name leads to never changes afterwards, since symbols are only added
behind those that are there.

- `Registry.Exact`, `Registry.Reachable.exact`: the indexes say what the symbols say.
- `Registry.findKind?_eq_some_iff`: when a symbol of a given kind is found.
-/

namespace Nullness

/-- The symbol is known under this qualified name. -/
def Symbol.isKnownAs (q : String) (s : Symbol) : Bool :=
  !s.isUnknown && s.qualifiedName == q

/-- The symbol was declared unknown under this qualified name. -/
def Symbol.isMissingAs (q : String) (s : Symbol) : Bool :=
  s.isUnknown && !s.isSynthetic && s.qualifiedName == q

section Symbol
variable {s s' : Symbol} {q : String}

theorem Symbol.isKnownAs_iff :
    s.isKnownAs q = true ↔ s.isUnknown = false ∧ s.qualifiedName = q := by
  simp [isKnownAs]

theorem Symbol.isMissingAs_iff : s.isMissingAs q = true ↔
    s.isUnknown = true ∧ s.isSynthetic = false ∧ s.qualifiedName = q := by
  simp [isMissingAs, and_assoc]

theorem Symbol.isKnownAs_of_bare (h : s'.bare = s.bare) : s'.isKnownAs q = s.isKnownAs q := by
  rw [isKnownAs, isKnownAs, isUnknown_of_bare h, qualifiedName_of_bare h]

theorem Symbol.isMissingAs_of_bare (h : s'.bare = s.bare) :
    s'.isMissingAs q = s.isMissingAs q := by
  have hsynthetic : s'.isSynthetic = s.isSynthetic := congrArg (·.isSynthetic) h
  rw [isMissingAs, isMissingAs, isUnknown_of_bare h, qualifiedName_of_bare h, hsynthetic]

end Symbol

/-- The first symbol that satisfies `p`. -/
def Graph.first? (g : Graph) (p : Symbol → Bool) : Option SymbolId :=
  (List.range g.size).find? fun i => p (g.symbol i)

theorem Graph.first?_eq_some_iff {g : Graph} {p : Symbol → Bool} {i : SymbolId} :
    g.first? p = some i ↔
      p (g.symbol i) = true ∧ i < g.size ∧ ∀ j, j < i → p (g.symbol j) = false := by
  simp [first?, List.find?_range_eq_some]

theorem Graph.first?_eq_none_iff {g : Graph} {p : Symbol → Bool} :
    g.first? p = none ↔ ∀ i, i < g.size → p (g.symbol i) = false := by
  simp [first?, List.find?_eq_none]

theorem Graph.first?_congr {g g' : Graph} {p : Symbol → Bool} (hsize : g'.size = g.size)
    (h : ∀ i, p (g'.symbol i) = p (g.symbol i)) : g'.first? p = g.first? p := by
  unfold first?
  rw [hsize]
  simp only [h]

namespace Registry

variable {r r' : Registry} {q : String} {i : SymbolId} {k : Kind}

/-! ## The indexes are exact -/

/-- Each index leads from a name to the first symbol that it is about. -/
structure Exact (r : Registry) : Prop where
  known : ∀ q, r.find? q = r.first? (Symbol.isKnownAs q)
  missing : ∀ q, r.unknownNames.find? q = r.first? (Symbol.isMissingAs q)

theorem first?_push (r : Registry) (e : Entry) (p : Symbol → Bool) :
    (r.push e).1.first? p =
      (r.first? p).or (if p (r.entrySymbol e) then some r.size else none) := by
  have hold : ∀ j ∈ List.range r.size,
      p ((r.push e).1.symbol j) = p (r.symbol j) := by
    intro j hj
    rw [symbol_push, if_neg (Nat.ne_of_lt (List.mem_range.mp hj))]
  have hnew : (r.push e).1.symbol r.size = r.entrySymbol e := by
    rw [symbol_push, if_pos rfl]
  unfold Graph.first?
  rw [size_push, List.range_succ, List.find?_append, List.find?_singleton, hnew]
  rw [List.find?_congr hold]

theorem find?_push (r : Registry) (e : Entry) (q : String) :
    (r.push e).1.find? q =
      (r.find? q).or (if (r.entrySymbol e).isKnownAs q then some r.size else none) := by
  show NameIndex.find? (if e.isUnknown then r.names else r.names.insertIfNew _ r.size) q = _
  by_cases hu : e.isUnknown = true
  · simp [hu, Symbol.isKnownAs, entrySymbol, Graph.find?]
  · rw [if_neg hu, NameIndex.find?_insertIfNew]
    by_cases hq : q = r.qualify e.owner e.name
    · subst hq
      simp only [↓reduceIte]
      cases hfind : r.names.find? (r.qualify e.owner e.name) <;>
        simp [hfind, hu, Symbol.isKnownAs, entrySymbol, Graph.find?]
    · have hq' : ¬ r.qualify e.owner e.name = q := fun h => hq h.symm
      simp [hq, hq', Symbol.isKnownAs, entrySymbol, Graph.find?]

theorem missing_push (r : Registry) (e : Entry) (q : String) :
    (r.push e).1.unknownNames.find? q =
      (r.unknownNames.find? q).or
        (if (r.entrySymbol e).isMissingAs q then some r.size else none) := by
  show NameIndex.find? (if e.isUnknown && !e.isSynthetic then
    r.unknownNames.insertIfNew _ r.size else r.unknownNames) q = _
  by_cases hu : (e.isUnknown && !e.isSynthetic) = true
  · rw [if_pos hu, NameIndex.find?_insertIfNew]
    have hmissing : (r.entrySymbol e).isMissingAs q = (r.qualify e.owner e.name == q) := by
      show (e.isUnknown && !e.isSynthetic && (r.qualify e.owner e.name == q)) = _
      rw [hu, Bool.true_and]
    rw [hmissing]
    by_cases hq : q = r.qualify e.owner e.name
    · subst hq
      simp only [↓reduceIte, beq_self_eq_true]
      cases r.unknownNames.find? (r.qualify e.owner e.name) <;> rfl
    · have hq' : ¬ r.qualify e.owner e.name = q := fun h => hq h.symm
      simp [hq, hq']
  · have hmissing : (r.entrySymbol e).isMissingAs q = false := by
      show (e.isUnknown && !e.isSynthetic && (r.qualify e.owner e.name == q)) = false
      rw [Bool.eq_false_iff.mpr hu, Bool.false_and]
    rw [if_neg hu, hmissing]
    simp

theorem exact_empty : ({} : Registry).Exact :=
  ⟨fun _ => rfl, fun _ => rfl⟩

theorem Exact.push (h : r.Exact) (e : Entry) : (r.push e).1.Exact := by
  refine ⟨fun q => ?_, fun q => ?_⟩
  · rw [find?_push, first?_push, h.known]
  · rw [missing_push, first?_push, h.missing]

theorem Exact.grown (h : r.Exact) (hg : Grown r r') : r'.Exact := by
  induction hg with
  | refl => exact h
  | push _ _ ih => exact ih.push _

/-- The indexes stay exact when only what is attached to symbols changes. -/
theorem Exact.of_bare (h : r.Exact) (hsize : r'.size = r.size) (hnames : r'.names = r.names)
    (hmissing : r'.unknownNames = r.unknownNames)
    (hbare : ∀ i, (r'.symbol i).bare = (r.symbol i).bare) : r'.Exact := by
  refine ⟨fun q => ?_, fun q => ?_⟩
  · rw [Graph.find?, hnames, ← Graph.find?, h.known]
    exact (Graph.first?_congr hsize fun i => Symbol.isKnownAs_of_bare (hbare i)).symm
  · rw [hmissing, h.missing]
    exact (Graph.first?_congr hsize fun i => Symbol.isMissingAs_of_bare (hbare i)).symm

theorem Exact.annotate (h : r.Exact) (id : SymbolId) (a : Annotation) :
    (r.annotate id a).Exact :=
  h.of_bare (size_annotate r id a) rfl rfl fun _ => bare_annotate id a

theorem Exact.setSite (h : r.Exact) (id : SymbolId) (site : Site) : (r.setSite id site).Exact :=
  h.of_bare (size_setSite r id site) rfl rfl fun _ => bare_setSite id site

theorem Exact.apply {e : Edit} (h : r.Exact) (he : e.Legal r) : (r.apply e).1.Exact := by
  rcases apply_cases he with hg | ⟨id, a, -, -, heq⟩ | ⟨id, site, -, heq⟩
  · exact h.grown hg
  · rw [heq]
    exact h.annotate id a
  · rw [heq]
    exact h.setSite id site

theorem Reachable.exact (h : r.Reachable) : r.Exact := by
  induction h with
  | empty => exact exact_empty
  | apply _ he ih => exact ih.apply he

theorem Exact.find?_eq_some_iff (h : r.Exact) :
    r.find? q = some i ↔ (r.symbol i).isKnownAs q = true ∧ i < r.size ∧
      ∀ j, j < i → (r.symbol j).isKnownAs q = false := by
  rw [h.known, Graph.first?_eq_some_iff]

theorem Exact.find?_eq_none_iff (h : r.Exact) :
    r.find? q = none ↔ ∀ j, j < r.size → (r.symbol j).isKnownAs q = false := by
  rw [h.known, Graph.first?_eq_none_iff]

theorem Exact.missing_eq_some_iff (h : r.Exact) :
    r.unknownNames.find? q = some i ↔ (r.symbol i).isMissingAs q = true ∧ i < r.size ∧
      ∀ j, j < i → (r.symbol j).isMissingAs q = false := by
  rw [h.missing, Graph.first?_eq_some_iff]

/-! ## Look-ups by kind -/

theorem findKind?_eq_some_iff :
    r.findKind? q k = some i ↔
      r.find? q = some i ∧ (r.symbol i).kind = k ∧ (r.symbol i).isUnknown = false := by
  unfold findKind?
  cases h : r.find? q with
  | none => simp
  | some j =>
      dsimp only
      constructor
      · intro hi
        split at hi
        · rename_i hj
          cases hi
          exact ⟨rfl, hj⟩
        · cases hi
      · rintro ⟨hij, hi⟩
        cases hij
        rw [if_pos hi]

/-- A symbol of one kind hides the symbols of all other kinds under its name. -/
theorem findKind?_eq_none_of_ne (h : r.find? q = some i) (hk : (r.symbol i).kind ≠ k) :
    r.findKind? q k = none := by
  cases hfind : r.findKind? q k with
  | none => rfl
  | some j =>
      obtain ⟨hj, hkind, -⟩ := findKind?_eq_some_iff.mp hfind
      rw [h] at hj
      cases hj
      exact absurd hkind hk

theorem Exact.findKind?_eq_some_iff (h : r.Exact) :
    r.findKind? q k = some i ↔ r.find? q = some i ∧ (r.symbol i).kind = k := by
  rw [Registry.findKind?_eq_some_iff]
  constructor
  · rintro ⟨hq, hk, -⟩
    exact ⟨hq, hk⟩
  · rintro ⟨hq, hk⟩
    exact ⟨hq, hk, (Symbol.isKnownAs_iff.mp (h.find?_eq_some_iff.mp hq).1).1⟩

end Registry

end Nullness
