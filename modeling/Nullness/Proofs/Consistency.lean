import Mathlib.Order.Bounds.Basic
import Nullness.Proofs.Supply

/-!
# What the names of a registry say

A symbol is named after its owner, which stands before it. Both indexes follow from the
symbols alone: each leads from a name to the first symbol that it is about, whatever else
has that name. Since symbols are only added, an answer of an index is final.

- `Graph.knownAs`, `Registry.missingAs`: the symbols that the two indexes are about.
- `Graph.Consistent`: what holds of the symbols of a graph and of its index.
- `Registry.Reachable.consistent`: it holds whatever edits were made, and look-ups are final.
-/

namespace Nullness

/-! ## Names and owners -/

/-- The symbol is named after its owner, if it has one. -/
def Graph.NamedByOwner (g : Graph) (i : SymbolId) : Prop :=
  (g.symbol i).qualifiedName =
    (g.symbol i).owner.elim (g.symbol i).name fun o =>
      (g.symbol o).qualifiedName ++ "." ++ (g.symbol i).name

/-- The symbols that are known under a qualified name. -/
def Graph.knownAs (g : Graph) (q : String) : Set SymbolId :=
  {i | i < g.size ∧ (g.symbol i).isUnknown = false ∧ (g.symbol i).qualifiedName = q}

/-- The symbols that were declared unknown under a qualified name. -/
def Registry.missingAs (r : Registry) (q : String) : Set SymbolId :=
  {i | i < r.size ∧ (r.symbol i).isUnknown = true ∧ (r.symbol i).isSynthetic = false ∧
    (r.symbol i).qualifiedName = q}

/-- A look-up gives the first of the positions that a name stands for, if there are any. -/
def FindsFirst (find : String → Option SymbolId) (positions : String → Set SymbolId) : Prop :=
  ∀ q, (∀ i, find q = some i ↔ IsLeast (positions q) i) ∧ (find q = none ↔ positions q = ∅)

theorem Graph.findsFirst_first? (g : Graph) (p : String → Symbol → Bool) :
    FindsFirst (fun q => g.first? (p q)) fun q => {i | i < g.size ∧ p q (g.symbol i) = true} := by
  refine fun q => ⟨fun i => ?_, ?_⟩
  · rw [first?_eq_some_iff]
    constructor
    · rintro ⟨hi, hlt, hfirst⟩
      refine ⟨⟨hlt, hi⟩, fun j hj => Nat.le_of_not_lt fun hji => ?_⟩
      have hnot := hfirst j hji
      rw [hj.2] at hnot
      cases hnot
    · rintro ⟨⟨hlt, hi⟩, hleast⟩
      refine ⟨hi, hlt, fun j hji => Bool.eq_false_iff.mpr fun hj => ?_⟩
      exact absurd (hleast ⟨Nat.lt_trans hji hlt, hj⟩) (Nat.not_le.mpr hji)
  · rw [first?_eq_none_iff, Set.eq_empty_iff_forall_notMem]
    simp

/-- The symbols of a graph are named after their owners, which stand before them, and the
index leads to the first known symbol of each name. -/
structure Graph.Consistent (g : Graph) : Prop where
  owner_lt : ∀ i o, i < g.size → (g.symbol i).owner = some o → o < i
  named : ∀ i, i < g.size → g.NamedByOwner i
  find : FindsFirst g.find? g.knownAs

section NamedByOwner
variable {g g' : Graph} {i : SymbolId}

/-- An owner stands before what it owns, so it is still there with its name. -/
theorem Graph.NamedByOwner.mono (h : g.NamedByOwner i) (hg : g.Sound) (hext : g.Extends g')
    (hi : i < g.size) : g'.NamedByOwner i := by
  have hbare := hext.bare i hi
  unfold NamedByOwner at h ⊢
  rw [Symbol.qualifiedName_of_bare hbare, Symbol.owner_of_bare hbare, Symbol.name_of_bare hbare, h]
  cases ho : (g.symbol i).owner with
  | none => rfl
  | some o =>
      have hlt : o < g.size := Nat.lt_trans (hg.owner_lt i o ho) hi
      rw [Option.elim_some, Option.elim_some, Symbol.qualifiedName_of_bare (hext.bare o hlt)]

end NamedByOwner

namespace Registry

variable {r r' : Registry} {q : String} {i : SymbolId}

theorem namedByOwner_push {e : Entry} (ho : ∀ o ∈ e.owner, o < r.size) :
    (r.push e).1.NamedByOwner r.size := by
  unfold Graph.NamedByOwner
  rw [symbol_push_size]
  show r.qualify e.owner e.name = e.owner.elim e.name _
  cases howner : e.owner with
  | none => rfl
  | some o =>
      have hlt : o < r.size := ho o howner
      rw [Option.elim_some, symbol_push, if_neg (Nat.ne_of_lt hlt)]
      rfl

theorem Grown.namedByOwner (hg : Grown r r') (hr : r.Sound)
    (h : ∀ i, i < r.size → r.NamedByOwner i) : ∀ i, i < r'.size → r'.NamedByOwner i := by
  induction hg with
  | refl => exact h
  | @push t e hg ho ih =>
      intro i hi
      rw [size_push] at hi
      rcases Nat.lt_or_eq_of_le (Nat.le_of_lt_succ hi) with hlt | rfl
      · exact (ih i hlt).mono (hg.sound hr) (extends_push t e) hlt
      · exact namedByOwner_push ho

theorem namedByOwner_apply {e : Edit} (hr : r.Sound) (he : e.Legal r)
    (h : ∀ i, i < r.size → r.NamedByOwner i) :
    ∀ i, i < (r.apply e).1.size → (r.apply e).1.NamedByOwner i := by
  rcases apply_cases he with hg | ⟨id, a, -, -, heq⟩ | ⟨id, site, -, heq⟩
  · exact hg.namedByOwner hr h
  · intro i hi
    rw [heq] at hi ⊢
    rw [size_annotate] at hi
    exact (h i hi).mono hr (extends_annotate r id a) hi
  · intro i hi
    rw [heq] at hi ⊢
    rw [size_setSite] at hi
    exact (h i hi).mono hr (extends_setSite r id site) hi

theorem Reachable.namedByOwner (h : r.Reachable) : ∀ i, i < r.size → r.NamedByOwner i := by
  induction h with
  | empty => exact fun i hi => absurd hi (Nat.not_lt_zero i)
  | apply hr he ih => exact namedByOwner_apply hr.sound he ih

/-! ## Indexes -/

theorem Exact.findsFirst_find? (h : r.Exact) : FindsFirst r.find? r.knownAs := by
  intro q
  have hset : r.knownAs q = {i | i < r.size ∧ (r.symbol i).isKnownAs q = true} :=
    Set.ext fun i => and_congr_right fun _ => Symbol.isKnownAs_iff.symm
  rw [h.known, hset]
  exact r.findsFirst_first? Symbol.isKnownAs q

theorem Exact.findsFirst_missing (h : r.Exact) :
    FindsFirst r.unknownNames.find? r.missingAs := by
  intro q
  have hset : r.missingAs q = {i | i < r.size ∧ (r.symbol i).isMissingAs q = true} :=
    Set.ext fun i => and_congr_right fun _ => Symbol.isMissingAs_iff.symm
  rw [h.missing, hset]
  exact r.findsFirst_first? Symbol.isMissingAs q

/-! ## Runs -/

theorem extends_apply {e : Edit} (he : e.Legal r) : r.Extends (r.apply e).1.toGraph :=
  ⟨size_le_apply he, fun _ hi => bare_apply he hi⟩

theorem extends_run {es : List Edit} :
    ∀ {r : Registry}, r.LegalRun es → r.Extends (r.run es).toGraph := by
  induction es with
  | nil => exact fun _ => .refl _
  | cons e es ih => exact fun hes => (extends_apply hes.1).trans (ih hes.2)

/-- **Consistency.** Whatever edits were made, symbols are named after owners that stand
before them, both indexes lead to the first symbol that they are about, and what a name led
to once it leads to after all further edits. -/
theorem Reachable.consistent (h : r.Reachable) :
    r.toGraph.Consistent ∧ FindsFirst r.unknownNames.find? r.missingAs ∧
      ∀ es, r.LegalRun es → ∀ q i, r.find? q = some i → (r.run es).find? q = some i := by
  refine ⟨⟨fun i o _ ho => h.sound.owner_lt i o ho, h.namedByOwner, h.exact.findsFirst_find?⟩,
    h.exact.findsFirst_missing, fun es hes q i hi => ?_⟩
  exact h.exact.find?_mono (h.run hes).exact (extends_run hes) hi

/-- A method that is declared unknown, a field, a nested class, a class that is declared
unknown and a type that was not found, all with the qualified name `p.C.X`. -/
def homonyms : Registry :=
  run {}
    [ .package "p", .member .cls "C" (some 0) false, .symbol .method "X" (some 1) true false,
      .member .var "X" (some 1) false, .member .cls "X" (some 1) false,
      .symbol .cls "X" (some 1) true false, .unknown "p.C.X" ]

theorem reachable_homonyms : homonyms.Reachable :=
  .run .empty (by decide)

/-- The field and the method come first under their name, also when more is added. -/
theorem consistent_homonyms :
    homonyms.Reachable ∧ IsLeast (homonyms.knownAs "p.C.X") 3 ∧
      IsLeast (homonyms.missingAs "p.C.X") 2 ∧
      (homonyms.run [.ensureClass "p.C.X", .annotate 1 ⟨7, []⟩]).find? "p.C.X" = some 3 := by
  have hfind : homonyms.find? "p.C.X" = some 3 := by decide
  obtain ⟨hgraph, hmissing, hrun⟩ := reachable_homonyms.consistent
  exact ⟨reachable_homonyms, ((hgraph.find "p.C.X").1 3).mp hfind,
    ((hmissing "p.C.X").1 2).mp (by decide), hrun _ (by decide) "p.C.X" 3 hfind⟩

end Registry

end Nullness
