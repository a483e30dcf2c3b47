import Mathlib
import Nullness.Ruling

/-!
# Verdicts whose parts agree

The four parts of a verdict, and whether it is the shared instance, are independent of
one another. `Verdict.Coherent` says that they agree. It fails for a verdict made anew
that says nothing, for one that names no annotation and yet has a level, and so on: it
holds of a result only if each place where verdicts are made sees to it.

- `Verdict.coherent_undecided`, `Verdict.coherent_decided`, `Ruling.coherent_verdict`: the
  places where verdicts are made.
- `Verdict.coherent_iff`: a coherent verdict is the shared one or that of a finding.
-/

namespace Nullness

theorem Level.ofKind_ne_unknown (k : Kind) : Level.ofKind k ≠ .unknown := by
  cases k <;> decide

theorem Level.ofKind_injective : Function.Injective Level.ofKind := by
  intro k l h
  cases k <;> cases l <;> first | rfl | cases h

/-- Every level but the unknown one is that of a kind. -/
theorem Level.exists_ofKind {l : Level} (h : l ≠ .unknown) : ∃ k, Level.ofKind k = l := by
  cases l with
  | unknown => exact absurd rfl h
  | pkg => exact ⟨.pkg, rfl⟩
  | cls => exact ⟨.cls, rfl⟩
  | method => exact ⟨.method, rfl⟩
  | var => exact ⟨.var, rfl⟩

namespace Verdict

variable {f f' : Finding} {v : Verdict}

/-! ## The verdict of a finding -/

@[simp]
theorem decided_ne_undecided : Verdict.decided f ≠ .undecided := fun h => by
  cases congrArg Verdict.isShared h

@[simp]
theorem undecided_ne_decided : Verdict.undecided ≠ .decided f := decided_ne_undecided.symm

theorem decided_injective : Function.Injective Verdict.decided := by
  rintro ⟨n, origin, source, viaMeta⟩ ⟨n', origin', source', viaMeta'⟩ h
  simp only [decided, make, Verdict.mk.injEq, Option.some.injEq] at h
  obtain ⟨rfl, horigin, rfl, rfl, -⟩ := h
  rw [Level.ofKind_injective horigin]

@[simp]
theorem decided_inj : Verdict.decided f = .decided f' ↔ f = f' := decided_injective.eq_iff

/-! ## Coherence -/

/-- The parts of a verdict agree: it says nothing exactly if it has no level, exactly if it
names no annotation, and exactly if it is the shared instance, which is not marked as
coming from an expansion. -/
structure Coherent (v : Verdict) : Prop where
  level : v.nullability? = none ↔ v.level = .unknown
  source : v.level = .unknown ↔ v.source? = none
  shared : v.source? = none ↔ v.isShared = true
  viaMeta : v.isShared = true → v.viaMeta = false

theorem coherent_undecided : Verdict.undecided.Coherent :=
  ⟨iff_of_true rfl rfl, iff_of_true rfl rfl, iff_of_true rfl rfl, fun _ => rfl⟩

theorem coherent_decided (f : Finding) : (Verdict.decided f).Coherent :=
  have hlevel : (Verdict.decided f).level ≠ .unknown := Level.ofKind_ne_unknown f.origin
  ⟨iff_of_false nofun hlevel, iff_of_false hlevel nofun, iff_of_false nofun nofun, nofun⟩

/-- A coherent verdict is the shared one, or one that a finding explains. -/
theorem coherent_iff : v.Coherent ↔ v = .undecided ∨ ∃ f, v = .decided f := by
  constructor
  · rintro ⟨hlevel, hsource, hshared, hmeta⟩
    obtain ⟨n?, l, a?, viaMeta, isShared⟩ := v
    dsimp only at hlevel hsource hshared hmeta
    cases n? with
    | none =>
        obtain rfl : l = .unknown := hlevel.mp rfl
        obtain rfl : a? = none := hsource.mp rfl
        obtain rfl : isShared = true := hshared.mp rfl
        obtain rfl : viaMeta = false := hmeta rfl
        exact Or.inl rfl
    | some n =>
        have hl : l ≠ .unknown := fun hl => by cases hlevel.mpr hl
        obtain ⟨k, rfl⟩ := Level.exists_ofKind hl
        obtain ⟨a, rfl⟩ := Option.ne_none_iff_exists'.mp (mt hsource.mpr hl)
        obtain rfl : isShared = false := Bool.eq_false_iff.mpr (mt hshared.mpr nofun)
        exact Or.inr ⟨⟨n, k, a, viaMeta⟩, rfl⟩
  · rintro (rfl | ⟨f, rfl⟩)
    · exact coherent_undecided
    · exact coherent_decided f

end Verdict

/-! ## Rulings -/

namespace Ruling

theorem verdict_found (n : Nullability) (a : Annotation) (k : Kind) (viaMeta : Bool) :
    (Ruling.found n a).verdict k viaMeta = .decided ⟨n, k, a, viaMeta⟩ := rfl

theorem verdict_eq_decided_iff {r : Ruling} {k : Kind} {viaMeta : Bool} {f : Finding} :
    r.verdict k viaMeta = .decided f ↔
      r = .found f.nullability f.source ∧ f.origin = k ∧ f.viaMeta = viaMeta := by
  cases r with
  | ambiguous => exact ⟨fun h => (Verdict.undecided_ne_decided h).elim, fun h => by cases h.1⟩
  | found n a =>
      rw [verdict_found, Verdict.decided_inj]
      constructor
      · rintro rfl
        exact ⟨rfl, rfl, rfl⟩
      · obtain ⟨m, origin, source, fromMeta⟩ := f
        rintro ⟨hfound, rfl, rfl⟩
        cases hfound
        rfl

theorem coherent_verdict (r : Ruling) (k : Kind) (viaMeta : Bool) :
    (r.verdict k viaMeta).Coherent := by
  cases r with
  | ambiguous => exact Verdict.coherent_undecided
  | found n a => exact Verdict.coherent_decided ⟨n, k, a, viaMeta⟩

end Ruling

end Nullness
