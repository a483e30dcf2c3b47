import Mathlib
import Nullness.Proofs.Policy
import Nullness.Proofs.Provenance

/-!
# Ambiguity is never guessed

An annotation type about which nothing is known might say anything. The search gives up
as soon as it meets one, so a finding tells that there was none: not among the
annotations that had to be read for it, not on the way to the owner that decided, and
not behind the annotation that decided unless that one is strong nullable.

- `Graph.Clear`: no type that is reached from a symbol is unknown.
- `Graph.Certain`: what is known when a stage makes a finding.
- `Graph.certain_of_resolve`: a finding is always certain in this sense.
-/

namespace Nullness

namespace Graph

variable {g : Graph} {s o : SymbolId} {t : Target} {f : Finding}

/-- No type that is reached from the annotations of a symbol is unknown. -/
def Clear (g : Graph) (i : SymbolId) : Prop :=
  ∀ a, g.Reached [] (g.annotations i) a → g.isUnknownType a = false

/-- An expansion keeps an annotation of every type that is reached. -/
theorem clear_of_known_expand {i : SymbolId}
    (h : ∀ a ∈ g.expand (g.annotations i), g.isUnknownType a = false) : g.Clear i := by
  intro a ha
  obtain ⟨b, hb, hba⟩ := type_mem_of_reached ha
  have hknown := h b hb
  rwa [isUnknownType, hba] at hknown

theorem Silent.clear (h : g.Silent t o) : g.Clear o :=
  clear_of_known_expand h.known_types

theorem known_of_ruling_none {as : List Annotation} (h : g.ruling as = none) :
    ∀ a ∈ as, g.isUnknownType a = false :=
  known_of_ruling (by simp [h]) (by simp [h])

theorem known_of_ruling_found {as : List Annotation} {n : Nullability} {a : Annotation}
    (h : g.ruling as = some (.found n a)) (hn : n ≠ .strongNullable) :
    ∀ a ∈ as, g.isUnknownType a = false := by
  refine known_of_ruling (by simp [h]) fun b hb => ?_
  rw [h] at hb
  cases hb
  exact hn rfl

/-! ## What a finding tells -/

/-- What is certain when a stage makes a finding about a symbol. A strong nullable
annotation ends the reading, so nothing is said about the types behind it. -/
def Certain (g : Graph) (s : SymbolId) (f : Finding) : Stage → Prop
  | .direct =>
      (f.nullability ≠ .strongNullable → ∀ a ∈ g.annotations s, g.isUnknownType a = false) ∧
      (f.nullability = .strongNullable → g.FirstStrong (g.annotations s) f.source)
  | .expanded =>
      (∀ a ∈ g.annotations s, g.isUnknownType a = false) ∧
      (f.nullability ≠ .strongNullable → g.Clear s) ∧
      (f.nullability = .strongNullable → g.FirstStrong (g.expand (g.annotations s)) f.source)
  | .owner near o =>
      g.Clear s ∧
      (∀ p ∈ near, (g.symbol p).isUnknown = false ∧ g.Clear p) ∧
      (g.symbol o).isUnknown = false ∧
      (∀ a ∈ g.annotations o, g.isUnknownType a = false) ∧
      (f.viaMeta = true → g.Clear o)

/-- An owner with a default is known, and so are the types that had to be read for it. -/
theorem certain_owner (h : g.defaultVerdict? t o = some (.decided f)) :
    (g.symbol o).isUnknown = false ∧ (∀ a ∈ g.annotations o, g.isUnknownType a = false) ∧
      (f.viaMeta = true → g.Clear o) := by
  obtain ⟨-, hknown, hdirect, hexpanded⟩ := (defaultVerdict?_eq_some_iff.mp h).decided_cases
  exact ⟨hknown, hdirect, fun hmeta => clear_of_known_expand (hexpanded hmeta)⟩

theorem Decides.certain {stage : Stage} (h : g.Decides s t stage (.decided f)) :
    g.Certain s f stage := by
  generalize hv : Verdict.decided f = v at h
  cases h with
  | direct hruling =>
      obtain ⟨rfl, -, -⟩ := Ruling.verdict_eq_decided_iff.mp hv.symm
      refine ⟨known_of_ruling_found hruling, fun hstrong => ?_⟩
      rw [hstrong] at hruling
      exact firstStrong_of_ruling hruling
  | expanded hnone hruling =>
      obtain ⟨rfl, -, -⟩ := Ruling.verdict_eq_decided_iff.mp hv.symm
      refine ⟨known_of_ruling_none hnone, fun hweak => ?_, fun hstrong => ?_⟩
      · exact clear_of_known_expand (known_of_ruling_found hruling hweak)
      · rw [hstrong] at hruling
        exact firstStrong_of_ruling hruling
  | owner _ hexpanded _ hnear ho =>
      refine ⟨clear_of_known_expand (known_of_ruling_none hexpanded), fun p hp => ?_,
        certain_owner (hv ▸ ho)⟩
      have hsilent := defaultVerdict?_eq_none_iff.mp (hnear p hp)
      exact ⟨hsilent.known, hsilent.clear⟩

/-- **Certainty.** A finding is made about a known symbol, by one of the stages. Unless it
is strong nullable, no unknown type was passed over for it: among the annotations of the
symbol, among all that is reached from it if its expansion was read, nor at the owners up
to the one that decided. If it is strong nullable, none stands before the annotation that
decided. -/
theorem certain_of_resolve (hg : g.Built) (h : g.resolve s t = .decided f) :
    (g.symbol s).isUnknown = false ∧ (∃ stage, g.Decides s t stage (.decided f)) ∧
      ∀ stage, g.Decides s t stage (.decided f) → g.Certain s f stage := by
  obtain ⟨hknown, hstage⟩ := exists_decides hg h
  exact ⟨hknown, hstage, fun _ hdecides => hdecides.certain⟩

/-- Nothing that is reached from the parameter, its method or its class is unknown. -/
theorem clear_parameterOfClass :
    parameterOfClass.resolve 3 .parameter = .decided classDefault ∧ parameterOfClass.Clear 3 ∧
      parameterOfClass.Clear 2 ∧ parameterOfClass.Clear 1 := by
  have hresolve : parameterOfClass.resolve 3 .parameter = .decided classDefault := by cbv
  obtain ⟨-, -, hcertain⟩ := certain_of_resolve built_parameterOfClass hresolve
  obtain ⟨hself, hnear, -, -, howner⟩ := hcertain (.owner [2] 1) decides_parameterOfClass
  obtain ⟨-, hmethod⟩ := hnear 2 List.mem_cons_self
  exact ⟨hresolve, hself, hmethod, howner rfl⟩

end Graph

end Nullness
