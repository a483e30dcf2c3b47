import Nullness.Proofs.Irrelevance
import Nullness.Proofs.Sources

/-!
# What the target is for

A query names a target, and only the defaults of owners look at it. A symbol that speaks for itself
says the same whatever it is asked about, and one that does not can only inherit non-null. The
unspecified target inherits nothing, so asking about it tells the two cases apart.

- `Graph.setsDefault_unspecified`: no annotation sets a default for the unspecified target.
- `Graph.own_or_inherited`: a finding comes from the symbol itself or from an owner.
- `Graph.resolve_targets`: what results for one target tell about those for the others.
-/

namespace Nullness

namespace Vocabulary

/-- No default names the unspecified target. -/
theorem unspecified_not_mem {name : String} {ts : List Target}
    (h : (name, Coverage.targets ts) ∈ scopeDefaults) : Target.unspecified ∉ ts := by
  simp only [scopeDefaults, everyTarget, List.mem_cons, Prod.mk.injEq, Coverage.targets.injEq,
    reduceCtorEq, List.not_mem_nil, and_false, or_false] at h
  rcases h with ⟨-, rfl⟩ | ⟨-, rfl⟩ | ⟨-, rfl⟩ | ⟨-, rfl⟩
  all_goals decide

/-- No location stands for the unspecified target. -/
theorem isLocation_unspecified (name : String) : isLocation name .unspecified = false := by
  rw [← Bool.not_eq_true, isLocation_iff]
  simp [locations]

end Vocabulary

namespace Graph

variable {g : Graph} {s o : SymbolId} {t u : Target} {f : Finding} {v : Verdict}
  {n : Nullability}

/-! ## The unspecified target -/

theorem setsDefault_unspecified (g : Graph) (a : Annotation) :
    g.setsDefault a .unspecified = false := by
  unfold setsDefault
  rcases hlookup : Vocabulary.scopeDefaults.lookup (g.typeName a) with - | ts | -
  · rfl
  · obtain ⟨before, after, hsplit, -⟩ := List.lookup_eq_some_iff.mp hlookup
    have hmem : (g.typeName a, Vocabulary.Coverage.targets ts) ∈ Vocabulary.scopeDefaults := by
      rw [hsplit]
      exact List.mem_append_cons_self
    simpa using Vocabulary.unspecified_not_mem hmem
  · cases a.argument? "value" with
    | none => rfl
    | some v =>
        simp only [g.mentions_name v (Vocabulary.isLocation · .unspecified)]
        rw [List.any_eq_false]
        intro n _
        rw [Vocabulary.isLocation_unspecified]
        exact Bool.false_ne_true

/-- An owner finds nothing about the unspecified target. -/
theorem defaultVerdict?_unspecified : g.defaultVerdict? .unspecified o ≠ some (.decided f) := by
  intro h
  obtain ⟨-, hsets⟩ := (g.goesBy_defaultRuling .unspecified).backs (verdictAt?_of_defaultVerdict? h)
  rw [setsDefault_unspecified] at hsets
  cases hsets

theorem not_decides_unspecified {near : List SymbolId} :
    ¬ g.Decides s .unspecified (.owner near o) (.decided f) := by
  intro h
  cases h with
  | owner _ _ _ _ ho => exact defaultVerdict?_unspecified ho

/-! ## What a symbol says by itself -/

/-- A symbol that speaks for itself says the same about every target. -/
theorem resolve_eq_of_own (hs : (g.symbol s).isUnknown = false) (hown : g.ownVerdict? s = some v)
    (t : Target) : g.resolve s t = v := by
  rw [resolve_eq_of_known hs, hown]
  rfl

/-- A finding comes from the symbol itself, and then it is made for every target, or else from an
owner. -/
theorem own_or_inherited (hg : g.Built) (h : g.resolve s t = .decided f) :
    (∀ u, g.resolve s u = .decided f) ∨
      ∃ near o, g.Decides s t (.owner near o) (.decided f) := by
  obtain ⟨hs, stage, hstage⟩ := exists_decides hg h
  rcases hstage.own_or_owner with hown | howner
  · exact Or.inl (resolve_eq_of_own hs hown)
  · exact Or.inr howner

/-- What allows null for one target does so for all. -/
theorem nullability?_of_nullable (hg : g.Built) (hn : n ≠ .nonNull)
    (h : (g.resolve s t).nullability? = some n) (u : Target) :
    (g.resolve s u).nullability? = some n := by
  rcases resolve_cases g s t with hnone | ⟨f, hf⟩
  · rw [hnone] at h
    cases h
  · rcases own_or_inherited hg hf with hall | ⟨near, o, howner⟩
    · rw [hall u, ← hf]
      exact h
    · have hnonNull : f.nullability = n := by
        rw [hf] at h
        exact Option.some.inj h
      exact absurd (hnonNull.symm.trans howner.owner_finding.1) hn

/-- **Targets.** If anything is found for the unspecified target, the same is found for every
target. If nothing is found for it, then for any other target nothing is found either, or an owner
finds non-null. So results for two targets never disagree on what allows null, and the unspecified
target inherits nothing. -/
theorem resolve_targets (hg : g.Built) (s : SymbolId) :
    (g.resolve s .unspecified ≠ .undecided →
      ∀ t, g.resolve s t = g.resolve s .unspecified) ∧
    (g.resolve s .unspecified = .undecided →
      ∀ t, g.resolve s t = .undecided ∨
        ∃ f near o, g.resolve s t = .decided f ∧ f.nullability = .nonNull ∧
          g.Decides s t (.owner near o) (.decided f)) ∧
    (∀ t u n, n ≠ .nonNull →
      ((g.resolve s t).nullability? = some n ↔ (g.resolve s u).nullability? = some n)) ∧
    ∀ near o f, ¬ g.Decides s .unspecified (.owner near o) (.decided f) := by
  refine ⟨fun hfound t => ?_, fun hnone t => ?_, fun t u n hn => ?_, fun near o f => ?_⟩
  · rcases resolve_cases g s .unspecified with hnone | ⟨f, hf⟩
    · exact absurd hnone hfound
    · rcases own_or_inherited hg hf with hall | ⟨near, o, howner⟩
      · exact (hall t).trans hf.symm
      · exact absurd howner not_decides_unspecified
  · rcases resolve_cases g s t with hundecided | ⟨f, hf⟩
    · exact Or.inl hundecided
    · rcases own_or_inherited hg hf with hall | ⟨near, o, howner⟩
      · rw [hall .unspecified] at hnone
        exact (Verdict.decided_ne_undecided hnone).elim
      · exact Or.inr ⟨f, near, o, hf, howner.owner_finding.1, howner⟩
  · exact ⟨fun h => nullability?_of_nullable hg hn h u,
      fun h => nullability?_of_nullable hg hn h t⟩
  · exact not_decides_unspecified

/-- A parameter inherits non-null from its class as a parameter only, and a field that allows null
does so for every target. -/
theorem targets_parameterOfClass :
    (parameterOfClass.resolve 3 .unspecified = .undecided ∧
      ∃ f near o, parameterOfClass.resolve 3 .parameter = .decided f ∧ f.nullability = .nonNull ∧
        parameterOfClass.Decides 3 .parameter (.owner near o) (.decided f)) ∧
    metaNullable.resolve 6 .unspecified ≠ .undecided ∧
    metaNullable.resolve 6 .result = metaNullable.resolve 6 .unspecified := by
  have hbuilt : metaNullable.Built := ⟨metaNullable, .run .empty (by decide), rfl⟩
  have hnone : parameterOfClass.resolve 3 .unspecified = .undecided := by cbv
  have hparameter : parameterOfClass.resolve 3 .parameter = .decided classDefault := by cbv
  have hfield : metaNullable.resolve 6 .unspecified =
      .decided ⟨.strongNullable, .var, ⟨1, []⟩, true⟩ := by cbv
  have hfound : metaNullable.resolve 6 .unspecified ≠ .undecided := by
    rw [hfield]
    exact Verdict.decided_ne_undecided
  obtain ⟨-, hinherits, -, -⟩ := resolve_targets built_parameterOfClass 3
  obtain ⟨hsame, -, -, -⟩ := resolve_targets hbuilt 6
  refine ⟨⟨hnone, ?_⟩, hfound, hsame hfound .result⟩
  rcases hinherits hnone .parameter with hundecided | hdecided
  · rw [hparameter] at hundecided
    exact (Verdict.decided_ne_undecided hundecided).elim
  · exact hdecided

end Graph

end Nullness
