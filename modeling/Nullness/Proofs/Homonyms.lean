import Nullness.Proofs.Consistency

/-!
# Symbols of one name

Symbols of different kinds may share a qualified name, as a field and a nested class do.
Since an index leads to the first symbol of a name only, a look-up by kind misses the symbols
that stand behind one of another kind. Then an operation that finds or creates creates again,
and a class that is declared is not found. These are the only exceptions.

- `Registry.Hides`: the first known symbol of a name is of another kind.
- `Registry.Reachable.settles_iff`: when finding or creating leads to the same symbol for good.
- `Registry.Reachable.findsClass_iff`: when the look-up of declared classes is complete.
-/

namespace Nullness

namespace Registry

variable {r r' : Registry} {q p : String} {i : SymbolId} {k : Kind}

/-! ## Hidden names -/

/-- The first known symbol of the name is of another kind. -/
def Hides (r : Registry) (k : Kind) (q : String) : Prop :=
  ∃ i, IsLeast (r.knownAs q) i ∧ (r.symbol i).kind ≠ k

theorem Exact.hides_iff (h : r.Exact) :
    r.Hides k q ↔ ∃ i, r.find? q = some i ∧ (r.symbol i).kind ≠ k :=
  exists_congr fun i => and_congr_left fun _ => ((h.findsFirst_find? q).1 i).symm

theorem Exact.findKind?_of_hides (h : r.Exact) (hk : r.Hides k q) : r.findKind? q k = none := by
  obtain ⟨i, hi, hkind⟩ := h.hides_iff.mp hk
  exact findKind?_eq_none_of_ne hi hkind

theorem Exact.findKind?_of_not_hides (h : r.Exact) (hk : ¬ r.Hides k q) :
    r.findKind? q k = r.find? q := by
  cases hfind : r.find? q with
  | none =>
      rw [findKind?, hfind]
  | some i =>
      refine h.findKind?_eq_some_iff.mpr ⟨hfind, ?_⟩
      by_contra hkind
      exact hk (h.hides_iff.mpr ⟨i, hfind, hkind⟩)

section Later
variable (h : r.Exact) (h' : r'.Exact) (hext : r.Extends r'.toGraph)
include h h' hext

theorem Exact.hides_mono (hk : r.Hides k q) : r'.Hides k q := by
  obtain ⟨i, hfind, hkind⟩ := h.hides_iff.mp hk
  refine h'.hides_iff.mpr ⟨i, h.find?_mono h' hext hfind, ?_⟩
  rwa [Symbol.kind_of_bare (hext.bare i (h.knows_of_find? hfind).lt)]

end Later

/-! ## What a first call leads to -/

theorem findKind?_push {e : Entry} (hu : e.isUnknown = false)
    (hq : r.qualify e.owner e.name = q) (hnone : r.find? q = none) :
    (r.push e).1.findKind? q e.kind = some (r.push e).2 := by
  have hknown : (r.entrySymbol e).isKnownAs q = true := Symbol.isKnownAs_iff.mpr ⟨hu, hq⟩
  rw [push_snd, findKind?_eq_some_iff, find?_push, hnone, hknown, symbol_push_size]
  exact ⟨rfl, rfl, hu⟩

theorem find?_push_of_ne {e : Entry} (hne : r.qualify e.owner e.name ≠ q) :
    (r.push e).1.find? q = r.find? q := by
  have hnot : (r.entrySymbol e).isKnownAs q ≠ true := fun h => hne (Symbol.isKnownAs_iff.mp h).2
  rw [find?_push, if_neg hnot, Option.or_none]

theorem find?_addPackage_of_ne (hne : p ≠ q) : (r.addPackage p).1.find? q = r.find? q := by
  rcases addPackage_cases r p with ⟨id, -, heq⟩ | ⟨-, heq⟩
  · rw [heq]
  · rw [heq]
    exact find?_push_of_ne hne

theorem length_lt_of_splitLastDot {s front last : String}
    (h : splitLastDot s = some (front, last)) : front.length < s.length := by
  rw [← eq_of_splitLastDot h, String.length_append, String.length_append]
  have hdot : ".".length = 1 := rfl
  omega

/-- The package of a class has a shorter name. -/
theorem Opened.find?_eq (h : r.Opened p r') (hle : p.length ≤ q.length) :
    r'.find? q = r.find? q := by
  rcases h with rfl | ⟨outer, name, hsplit, -, rfl⟩
  · rfl
  · refine find?_addPackage_of_ne fun heq => ?_
    have hlt := length_lt_of_splitLastDot hsplit
    rw [heq] at hlt
    exact absurd hle (Nat.not_le.mpr hlt)

theorem Exact.find?_ensureClass_of_lt (h : r.Exact) (hlt : p.length < q.length) :
    (r.ensureClass p).1.find? q = r.find? q := by
  rcases h.ensureClass_cases p with
    ⟨id, -, heq⟩ | ⟨-, r', e, hopened, -, -, -, -, -, hname, heq⟩
  · rw [heq]
  · have hne : r'.qualify e.owner e.name ≠ q := by
      rintro rfl
      rw [hname] at hlt
      exact Nat.lt_irrefl _ hlt
    rw [heq, find?_push_of_ne hne, hopened.find?_eq (Nat.le_of_lt hlt)]

theorem Exact.findKind?_addPackage (h : r.Exact) (hk : ¬ r.Hides .pkg q) :
    (r.addPackage q).1.findKind? q .pkg = some (r.addPackage q).2 := by
  rcases addPackage_cases r q with ⟨id, hfind, heq⟩ | ⟨hnone, heq⟩
  · rw [heq]
    exact hfind
  · rw [h.findKind?_of_not_hides hk] at hnone
    rw [heq]
    exact findKind?_push rfl rfl hnone

theorem Exact.findKind?_ensureClass (h : r.Exact) (hk : ¬ r.Hides .cls q) :
    (r.ensureClass q).1.findKind? q .cls = some (r.ensureClass q).2 := by
  rcases h.ensureClass_cases q with
    ⟨id, hfind, heq⟩ | ⟨hnone, r', e, hopened, -, hcls, hu, -, -, hname, heq⟩
  · rw [heq]
    exact hfind
  · rw [h.findKind?_of_not_hides hk, ← hopened.find?_eq (Nat.le_refl _)] at hnone
    rw [heq, ← hcls]
    exact findKind?_push hu hname hnone

theorem Exact.qualify_ensureClass (h : r.Exact) (c name : String) :
    (r.ensureClass c).1.qualify (some (r.ensureClass c).2) name = c ++ "." ++ name := by
  rw [qualify, (h.knows_ensureClass c).name]

theorem Exact.hides_ensureClass_iff (h : r.Exact) (hlt : p.length < q.length) :
    (r.ensureClass p).1.Hides k q ↔ r.Hides k q := by
  have hgrown := (delivers_ensureClass r p).1
  have hfind := h.find?_ensureClass_of_lt hlt
  rw [(h.grown hgrown).hides_iff, h.hides_iff, hfind]
  refine exists_congr fun i => and_congr_right fun hi => ?_
  rw [hgrown.symbol (h.knows_of_find? hi).lt]

theorem length_lt_constant (c name : String) : c.length < (c ++ "." ++ name).length := by
  rw [String.length_append, String.length_append]
  have hdot : ".".length = 1 := rfl
  omega

theorem Exact.findKind?_enumConstant (h : r.Exact) {c name : String}
    (hk : ¬ r.Hides .var (c ++ "." ++ name)) :
    (r.enumConstant c name).1.findKind? (c ++ "." ++ name) .var =
      some (r.enumConstant c name).2 := by
  have hclass : (r.ensureClass c).1.Exact := h.grown (delivers_ensureClass r c).1
  have hname := h.qualify_ensureClass c name
  rcases enumConstant_cases r c name with ⟨id, hfind, heq⟩ | ⟨hnone, heq⟩
  · rw [heq]
    rw [hname] at hfind
    exact hfind
  · rw [← h.hides_ensureClass_iff (length_lt_constant c name)] at hk
    rw [hname, hclass.findKind?_of_not_hides hk] at hnone
    rw [heq]
    exact findKind?_push rfl hname hnone

/-! ## Calls after that -/

theorem addPackage_of_findKind? (h : r.findKind? q .pkg = some i) : r.addPackage q = (r, i) := by
  rw [addPackage, h]

theorem ensureClass_of_findKind? (h : r.findKind? q .cls = some i) : r.ensureClass q = (r, i) := by
  rw [ensureClass, h]

theorem Exact.enumConstant_of_findKind? (h : r.Exact) {c name : String} {o : SymbolId}
    (hc : r.findKind? c .cls = some o) (hname : r.findKind? (c ++ "." ++ name) .var = some i) :
    r.enumConstant c name = (r, i) := by
  have hq : r.qualify (some o) name = c ++ "." ++ name := by
    rw [qualify, (h.knows_of_findKind? hc).name]
  rw [enumConstant, ensureClass_of_findKind? hc]
  dsimp only
  rw [hq, hname]

theorem Exact.size_lt_addPackage (h : r.Exact) (hk : r.Hides .pkg q) :
    r.size < (r.addPackage q).1.size := by
  rw [addPackage, h.findKind?_of_hides hk]
  dsimp only
  rw [size_push]
  exact Nat.lt_succ_self _

theorem Exact.size_lt_ensureClass (h : r.Exact) (hk : r.Hides .cls q) :
    r.size < (r.ensureClass q).1.size := by
  rcases h.ensureClass_cases q with ⟨id, hfind, -⟩ | ⟨-, r', e, hopened, -, -, -, -, -, -, heq⟩
  · rw [h.findKind?_of_hides hk] at hfind
    cases hfind
  · have hle : r.size ≤ r'.size := by
      rcases hopened with rfl | ⟨outer, name, -, -, rfl⟩
      · exact Nat.le_refl _
      · exact (delivers_addPackage r outer).1.size_le
    rw [heq, size_push]
    exact Nat.lt_succ_of_le hle

theorem Exact.size_lt_enumConstant (h : r.Exact) {c name : String}
    (hk : r.Hides .cls c ∨ r.Hides .var (c ++ "." ++ name)) :
    r.size < (r.enumConstant c name).1.size := by
  have hgrown := (delivers_ensureClass r c).1
  have hsize : (r.ensureClass c).1.size ≤ (r.enumConstant c name).1.size := by
    rcases enumConstant_cases r c name with ⟨id, -, heq⟩ | ⟨-, heq⟩
    · rw [heq]
    · rw [heq, size_push]
      exact Nat.le_succ _
  rcases hk with hk | hk
  · exact Nat.lt_of_lt_of_le (h.size_lt_ensureClass hk) hsize
  · -- the class may be found, but the constant is not
    have hclass := h.grown hgrown
    have hnone := hclass.findKind?_of_hides (h.hides_mono hclass hgrown.extends hk)
    rcases enumConstant_cases r c name with ⟨id, hfind, -⟩ | ⟨-, heq⟩
    · rw [h.qualify_ensureClass, hnone] at hfind
      cases hfind
    · rw [heq, size_push]
      exact Nat.lt_succ_of_le hgrown.size_le

/-! ## Finding what was created -/

/-- Carried out again at any later time, the operation gives the same symbol and adds nothing. -/
def Settles (r : Registry) (find : Registry → Registry × SymbolId) : Prop :=
  ∀ es, (find r).1.LegalRun es → find ((find r).1.run es) = ((find r).1.run es, (find r).2)

theorem not_settles {find : Registry → Registry × SymbolId}
    (h : (find r).1.size < (find (find r).1).1.size) : ¬ r.Settles find := by
  intro hs
  have hsize := congrArg (·.1.size) (hs [] trivial)
  exact absurd hsize (Nat.ne_of_gt h)

theorem Reachable.findKind?_run {es : List Edit} (h : r.Reachable) (hes : r.LegalRun es)
    (hq : r.findKind? q k = some i) : (r.run es).findKind? q k = some i :=
  h.exact.findKind?_mono (h.run hes).exact (extends_run hes) hq

theorem Reachable.settles_addPackage_iff (h : r.Reachable) :
    r.Settles (·.addPackage q) ↔ ¬ r.Hides .pkg q := by
  have hafter : (r.addPackage q).1.Reachable := h.apply (e := .package q) trivial
  constructor
  · intro hs hk
    have hlater := h.exact.hides_mono hafter.exact (delivers_addPackage r q).1.extends hk
    exact not_settles (hafter.exact.size_lt_addPackage hlater) hs
  · intro hk es hes
    exact addPackage_of_findKind? (hafter.findKind?_run hes (h.exact.findKind?_addPackage hk))

theorem Reachable.settles_ensureClass_iff (h : r.Reachable) :
    r.Settles (·.ensureClass q) ↔ ¬ r.Hides .cls q := by
  have hafter : (r.ensureClass q).1.Reachable := h.apply (e := .ensureClass q) trivial
  constructor
  · intro hs hk
    have hlater := h.exact.hides_mono hafter.exact (delivers_ensureClass r q).1.extends hk
    exact not_settles (hafter.exact.size_lt_ensureClass hlater) hs
  · intro hk es hes
    exact ensureClass_of_findKind? (hafter.findKind?_run hes (h.exact.findKind?_ensureClass hk))

theorem Reachable.settles_enumConstant_iff (h : r.Reachable) {c name : String} :
    r.Settles (·.enumConstant c name) ↔
      ¬ r.Hides .cls c ∧ ¬ r.Hides .var (c ++ "." ++ name) := by
  have hclass : (r.ensureClass c).1.Reachable := h.apply (e := .ensureClass c) trivial
  have hafter : (r.enumConstant c name).1.Reachable := h.apply (e := .enumConstant c name) trivial
  rw [← not_or]
  constructor
  · intro hs hk
    have hext := (delivers_enumConstant r c name).1.extends
    have hlater := hk.imp (h.exact.hides_mono hafter.exact hext)
      (h.exact.hides_mono hafter.exact hext)
    exact not_settles (hafter.exact.size_lt_enumConstant hlater) hs
  · intro hk es hes
    obtain ⟨hc, hname⟩ := not_or.mp hk
    -- the class is still found behind the constant
    have hfound : (r.enumConstant c name).1.findKind? c .cls = some (r.ensureClass c).2 := by
      have hfind := h.exact.findKind?_ensureClass hc
      rcases enumConstant_cases r c name with ⟨id, -, heq⟩ | ⟨-, heq⟩
      · rw [heq]
        exact hfind
      · rw [heq]
        refine (hclass.exact.findKind?_push_of_ne ?_).trans hfind
        exact nofun
    exact (hafter.run hes).exact.enumConstant_of_findKind? (hafter.findKind?_run hes hfound)
      (hafter.findKind?_run hes (h.exact.findKind?_enumConstant hname))

/-- **Finding what was created.** The operations that find or create give the same symbol ever
after, and add nothing more, exactly where no symbol of another kind hides the name. -/
theorem Reachable.settles_iff (h : r.Reachable) :
    (∀ q, r.Settles (·.addPackage q) ↔ ¬ r.Hides .pkg q) ∧
    (∀ q, r.Settles (·.ensureClass q) ↔ ¬ r.Hides .cls q) ∧
    ∀ c name, r.Settles (·.enumConstant c name) ↔
      ¬ r.Hides .cls c ∧ ¬ r.Hides .var (c ++ "." ++ name) :=
  ⟨fun _ => h.settles_addPackage_iff, fun _ => h.settles_ensureClass_iff,
    fun _ _ => h.settles_enumConstant_iff⟩

/-- The class `p.C` and the constant `p.C.X` are found again, a class `p.C.X` is not. -/
theorem settles_homonyms :
    homonyms.Reachable ∧ homonyms.Settles (·.enumConstant "p.C" "X") ∧
      ¬ homonyms.Settles (·.ensureClass "p.C.X") := by
  have hr := reachable_homonyms
  have hclass : ¬ homonyms.Hides .cls "p.C" := by
    rw [hr.exact.hides_iff, show homonyms.find? "p.C" = some 1 by decide]
    rintro ⟨i, ⟨⟩, hi⟩
    exact hi (by decide)
  have hfield : ¬ homonyms.Hides .var ("p.C" ++ "." ++ "X") := by
    rw [hr.exact.hides_iff, show homonyms.find? ("p.C" ++ "." ++ "X") = some 3 by decide]
    rintro ⟨i, ⟨⟩, hi⟩
    exact hi (by decide)
  have hhidden : homonyms.Hides .cls "p.C.X" := hr.exact.hides_iff.mpr ⟨3, by decide, by decide⟩
  obtain ⟨-, hensure, henum⟩ := hr.settles_iff
  exact ⟨hr, (henum "p.C" "X").mpr ⟨hclass, hfield⟩, fun hs => (hensure _).mp hs hhidden⟩

/-- Behind a field of that name, each call creates another package, class or constant. -/
theorem creates_again_homonyms :
    homonyms.Reachable ∧ ¬ homonyms.Settles (·.addPackage "p.C.X") ∧
      ¬ homonyms.Settles (·.ensureClass "p.C.X") ∧
      ¬ homonyms.Settles (·.enumConstant "p.C.X" "A") :=
  ⟨reachable_homonyms, not_settles (by decide), not_settles (by decide),
    not_settles (by decide)⟩

/-! ## Declared classes -/

/-- The position holds a class that is known or was declared unknown under the name. -/
def DeclaresClass (r : Registry) (q : String) (i : SymbolId) : Prop :=
  i ∈ r.knownAs q ∪ r.missingAs q ∧ (r.symbol i).kind = .cls

/-- The look-up of declared classes finds a class of this name if there is one, a known one
if there is one, and nothing else. -/
structure FindsClass (r : Registry) (q : String) : Prop where
  isSome_iff : (∃ i, r.findDeclaredClass? q = some i) ↔ ∃ i, r.DeclaresClass q i
  declares : ∀ i, r.findDeclaredClass? q = some i → r.DeclaresClass q i
  known : ∀ i, r.findDeclaredClass? q = some i →
    (∃ j ∈ r.knownAs q, (r.symbol j).kind = .cls) → i ∈ r.knownAs q

/-- There is a known class of the name, but it does not come first; or there is none, and
that is so of the classes that were declared unknown. -/
def OverlooksClass (r : Registry) (q : String) : Prop :=
  (r.Hides .cls q ∧ ∃ j ∈ r.knownAs q, (r.symbol j).kind = .cls) ∨
  ((∀ j ∈ r.knownAs q, (r.symbol j).kind ≠ .cls) ∧
    (∃ i, IsLeast (r.missingAs q) i ∧ (r.symbol i).kind ≠ .cls) ∧
    ∃ j ∈ r.missingAs q, (r.symbol j).kind = .cls)

theorem findDeclaredClass?_eq_some_iff :
    r.findDeclaredClass? q = some i ↔ r.findKind? q .cls = some i ∨
      (r.findKind? q .cls = none ∧ r.unknownNames.find? q = some i ∧
        (r.symbol i).kind = .cls) := by
  rw [findDeclaredClass?]
  cases r.findKind? q .cls with
  | some j => simp
  | none =>
      cases r.unknownNames.find? q with
      | none => simp
      | some j =>
          simp only [reduceCtorEq, false_or, true_and, Option.some.injEq]
          by_cases hj : (r.symbol j).kind = .cls
          · rw [if_pos hj, Option.some.injEq]
            exact ⟨fun h => ⟨h, h ▸ hj⟩, fun h => h.1⟩
          · rw [if_neg hj]
            constructor
            · rintro ⟨⟩
            · rintro ⟨rfl, hcls⟩
              exact absurd hcls hj

theorem Exact.mem_knownAs_of_findKind? (h : r.Exact) (hq : r.findKind? q k = some i) :
    i ∈ r.knownAs q ∧ (r.symbol i).kind = k := by
  obtain ⟨hfind, hkind⟩ := h.findKind?_eq_some_iff.mp hq
  exact ⟨(((h.findsFirst_find? q).1 i).mp hfind).1, hkind⟩

theorem Exact.declaresClass_of_find (h : r.Exact) (hq : r.findDeclaredClass? q = some i) :
    r.DeclaresClass q i := by
  rcases findDeclaredClass?_eq_some_iff.mp hq with hfind | ⟨-, hmissing, hkind⟩
  · obtain ⟨hmem, hkind⟩ := h.mem_knownAs_of_findKind? hfind
    exact ⟨Or.inl hmem, hkind⟩
  · exact ⟨Or.inr (((h.findsFirst_missing q).1 i).mp hmissing).1, hkind⟩

/-- A known class that is not found is hidden. -/
theorem Exact.hides_of_mem (h : r.Exact) (hnone : r.findKind? q k = none) (hi : i ∈ r.knownAs q) :
    r.Hides k q := by
  by_contra hk
  rw [h.findKind?_of_not_hides hk, (h.findsFirst_find? q).2] at hnone
  rw [hnone] at hi
  exact hi

/-- A class that is overlooked is not found, or something else is found in its place. -/
theorem Exact.not_findsClass (h : r.Exact) (ho : r.OverlooksClass q) : ¬ r.FindsClass q := by
  intro hf
  rcases ho with ⟨hk, j, hj, hcls⟩ | ⟨hnone, ⟨i, hi, hkind⟩, j, hj, hcls⟩
  · -- only a class that was declared unknown can be found, but there is a known one
    obtain ⟨i, hi⟩ := hf.isSome_iff.mpr ⟨j, Or.inl hj, hcls⟩
    rcases findDeclaredClass?_eq_some_iff.mp hi with hfind | ⟨-, hmissing, -⟩
    · rw [h.findKind?_of_hides hk] at hfind
      cases hfind
    · have hunknown := (((h.findsFirst_missing q).1 i).mp hmissing).1.2.1
      rw [(hf.known i hi ⟨j, hj, hcls⟩).2.1] at hunknown
      cases hunknown
  · obtain ⟨l, hl⟩ := hf.isSome_iff.mpr ⟨j, Or.inr hj, hcls⟩
    rcases findDeclaredClass?_eq_some_iff.mp hl with hfind | ⟨-, hmissing, hlcls⟩
    · obtain ⟨hmem, hlcls⟩ := h.mem_knownAs_of_findKind? hfind
      exact hnone l hmem hlcls
    · have hli := (((h.findsFirst_missing q).1 l).mp hmissing).unique hi
      exact hkind (hli ▸ hlcls)

theorem Exact.findsClass (h : r.Exact) (ho : ¬ r.OverlooksClass q) : r.FindsClass q := by
  obtain ⟨hhidden, hmissing⟩ := not_or.mp ho
  cases hfind : r.findKind? q .cls with
  | some i =>
      have hi : r.findDeclaredClass? q = some i := findDeclaredClass?_eq_some_iff.mpr (Or.inl hfind)
      refine ⟨⟨fun ⟨j, hj⟩ => ⟨j, h.declaresClass_of_find hj⟩, fun _ => ⟨i, hi⟩⟩,
        fun j hj => h.declaresClass_of_find hj, fun j hj _ => ?_⟩
      rw [hi] at hj
      cases hj
      exact (h.mem_knownAs_of_findKind? hfind).1
  | none =>
      have hnone : ∀ j ∈ r.knownAs q, (r.symbol j).kind ≠ .cls :=
        fun j hj hcls => hhidden ⟨h.hides_of_mem hfind hj, j, hj, hcls⟩
      refine ⟨⟨fun ⟨j, hj⟩ => ⟨j, h.declaresClass_of_find hj⟩, ?_⟩,
        fun j hj => h.declaresClass_of_find hj, fun _ _ ⟨j, hj, hcls⟩ => absurd hcls (hnone j hj)⟩
      rintro ⟨j, hj | hj, hcls⟩
      · exact absurd hcls (hnone j hj)
      · -- the first symbol that was declared unknown is a class as well
        cases hfirst : r.unknownNames.find? q with
        | none =>
            rw [(h.findsFirst_missing q).2] at hfirst
            rw [hfirst] at hj
            exact absurd hj (Set.notMem_empty j)
        | some i =>
            have hleast := ((h.findsFirst_missing q).1 i).mp hfirst
            refine ⟨i, findDeclaredClass?_eq_some_iff.mpr (Or.inr ⟨hfind, hfirst, ?_⟩)⟩
            by_contra hkind
            exact hmissing ⟨hnone, ⟨i, hleast, hkind⟩, j, hj, hcls⟩

/-- **Declared classes.** What the look-up of declared classes gives is always one. It finds
one wherever there is one, and a known one if it can, exactly where none is overlooked. -/
theorem Reachable.findsClass_iff (h : r.Reachable) (q : String) :
    (∀ i, r.findDeclaredClass? q = some i → r.DeclaresClass q i) ∧
      (r.FindsClass q ↔ ¬ r.OverlooksClass q) :=
  ⟨fun _ => h.exact.declaresClass_of_find,
    fun hf ho => h.exact.not_findsClass ho hf, h.exact.findsClass⟩

/-- The class `p.C` is found. A known class `p.C.X` stands behind a field of that name. -/
theorem findsClass_homonyms :
    homonyms.Reachable ∧ homonyms.FindsClass "p.C" ∧ ¬ homonyms.FindsClass "p.C.X" := by
  have hr := reachable_homonyms
  have hfield : homonyms.OverlooksClass "p.C.X" :=
    Or.inl ⟨hr.exact.hides_iff.mpr ⟨3, by decide, by decide⟩, 4, ⟨by decide, by decide, by decide⟩,
      by decide⟩
  have hclass : ¬ homonyms.OverlooksClass "p.C" := by
    have hleast : IsLeast (homonyms.knownAs "p.C") 1 :=
      ((hr.exact.findsFirst_find? "p.C").1 1).mp (by decide)
    rintro (⟨⟨i, hi, hkind⟩, -⟩ | ⟨hnone, -⟩)
    · rw [hi.unique hleast] at hkind
      exact hkind (by decide)
    · exact hnone 1 hleast.1 (by decide)
  exact ⟨hr, (hr.findsClass_iff "p.C").2.mpr hclass, fun hf =>
    (hr.findsClass_iff "p.C.X").2.mp hf hfield⟩

/-- A nested class with the name of a field is declared and known, and no class is found. -/
theorem overlooks_homonyms :
    homonyms.Reachable ∧ homonyms.DeclaresClass "p.C.X" 4 ∧ (homonyms.symbol 4).isUnknown = false ∧
      homonyms.findDeclaredClass? "p.C.X" = none :=
  ⟨reachable_homonyms, ⟨Or.inl ⟨by decide, by decide, by decide⟩, by decide⟩, by decide,
    by decide⟩

end Registry

end Nullness
