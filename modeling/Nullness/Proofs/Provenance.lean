import Mathlib
import Nullness.Proofs.Precedence

/-!
# Where a verdict comes from

The search for the effective nullability of a symbol passes through stages: its own
annotations, what these expand to, and its owners, nearest first. The first stage that
says something decides.

- `Graph.Decides`: a stage decides, with this verdict.
- `Graph.exists_decides`: every finding is the verdict of some stage.
- `Graph.Decides.owner_finding`: owners only ever find non-null, at their own level.
- `Graph.coherent_resolve`, `Graph.coherent_answer`: wherever the search ends, the parts of
  its verdict agree, since they do where verdicts are made.
- `Graph.answer_consistent`: the parts of an answer agree with one another, and its level
  and nullability with the stage that decided.
-/

namespace Nullness

namespace Graph

variable {g : Graph} {s : SymbolId} {t : Target} {f : Finding}

/-! ## Stages -/

/-- A stage of the search. -/
inductive Stage
  /-- The annotations of the symbol. -/
  | direct
  /-- What these expand to. -/
  | expanded
  /-- The owner `o`, behind the nearer owners `near`. -/
  | owner (near : List SymbolId) (o : SymbolId)

/-- A stage decides on a symbol as a target: the stages before it say nothing, and it
gives this verdict. -/
inductive Decides (g : Graph) (s : SymbolId) (t : Target) : Stage → Verdict → Prop
  | direct {r : Ruling} : g.ruling (g.annotations s) = some r →
      Decides g s t .direct (r.verdict (g.symbol s).kind false)
  | expanded {r : Ruling} : g.ruling (g.annotations s) = none →
      g.ruling (g.expand (g.annotations s)) = some r →
      Decides g s t .expanded (r.verdict (g.symbol s).kind true)
  | owner {near far : List SymbolId} {o : SymbolId} {v : Verdict} :
      g.ruling (g.annotations s) = none → g.ruling (g.expand (g.annotations s)) = none →
      g.OwnerChain s (near ++ o :: far) → (∀ p ∈ near, g.defaultVerdict? t p = none) →
      g.defaultVerdict? t o = some v → Decides g s t (.owner near o) v

/-- Every finding is made about a known symbol, by some stage. -/
theorem exists_decides (hg : g.Built) (h : g.resolve s t = .decided f) :
    (g.symbol s).isUnknown = false ∧ ∃ stage, g.Decides s t stage (.decided f) := by
  have hs : (g.symbol s).isUnknown = false := by
    cases hu : (g.symbol s).isUnknown with
    | false => rfl
    | true =>
        rw [resolve, if_pos hu] at h
        exact (Verdict.undecided_ne_decided h).elim
  refine ⟨hs, ?_⟩
  rw [resolve_eq_of_known hs] at h
  cases hown : g.ownVerdict? s with
  | some v =>
      rw [hown] at h
      cases (show v = .decided f from h)
      rcases verdictAt?_eq_some_iff.mp hown with ⟨r, hr, hv⟩ | ⟨hnone, r, hr, hv⟩
      · exact ⟨.direct, hv ▸ .direct hr⟩
      · exact ⟨.expanded, hv ▸ .expanded hnone hr⟩
  | none =>
      obtain ⟨hdirect, hexpanded⟩ := verdictAt?_eq_none_iff.mp hown
      rw [hown, Option.none_or] at h
      cases hwalk : (g.owners s).findSome? (g.defaultVerdict? t) with
      | none =>
          rw [hwalk] at h
          exact (Verdict.undecided_ne_decided h).elim
      | some v =>
          rw [hwalk] at h
          cases (show v = .decided f from h)
          obtain ⟨near, o, far, hsplit, ho, hnear⟩ := List.findSome?_eq_some_iff.mp hwalk
          have hchain := hg.sound.ownerChain_owners s
          exact ⟨.owner near o, .owner hdirect hexpanded (hsplit ▸ hchain) hnear ho⟩

/-- An owner finds nothing but defaults, at its own level. -/
theorem defaultVerdict?_decided {o : SymbolId} (h : g.defaultVerdict? t o = some (.decided f)) :
    f.nullability = .nonNull ∧ f.origin = (g.symbol o).kind :=
  (defaultVerdict?_eq_some_iff.mp h).decided_cases.1

theorem Decides.owner_finding {near : List SymbolId} {o : SymbolId}
    (h : g.Decides s t (.owner near o) (.decided f)) :
    f.nullability = .nonNull ∧ f.origin = (g.symbol o).kind := by
  cases h with
  | owner _ _ _ _ ho => exact defaultVerdict?_decided ho

/-- A finding stands at the level of the symbol, or is a default at the level of an owner. -/
theorem Decides.origin {stage : Stage} (h : g.Decides s t stage (.decided f)) :
    f.origin = (g.symbol s).kind ∨
      f.nullability = .nonNull ∧ ∃ os, g.OwnerChain s os ∧
        ∃ o ∈ os, f.origin = (g.symbol o).kind := by
  generalize hv : Verdict.decided f = v at h
  cases h with
  | direct _ =>
      obtain ⟨-, horigin, -⟩ := Ruling.verdict_eq_decided_iff.mp hv.symm
      exact Or.inl horigin
  | expanded _ _ =>
      obtain ⟨-, horigin, -⟩ := Ruling.verdict_eq_decided_iff.mp hv.symm
      exact Or.inl horigin
  | owner _ _ hchain _ ho =>
      obtain ⟨hnonNull, horigin⟩ := defaultVerdict?_decided (hv ▸ ho)
      exact Or.inr ⟨hnonNull, _, hchain, _, by simp, horigin⟩

theorem built_parameterOfClass : parameterOfClass.Built :=
  ⟨parameterOfClass, .run .empty (by decide), rfl⟩

/-- What the class of `parameterOfClass` says about parameters. -/
def classDefault : Finding where
  nullability := .nonNull
  origin := .cls
  source := ⟨6, [⟨"value", .list [.symbol 8]⟩]⟩
  viaMeta := true

/-- The class decides on the parameter `x`, behind the method. -/
theorem decides_parameterOfClass :
    parameterOfClass.Decides 3 .parameter (.owner [2] 1) (.decided classDefault) := by
  have hchain : parameterOfClass.OwnerChain 3 ([2] ++ 1 :: [0]) :=
    built_parameterOfClass.sound.ownerChain_iff.mpr (by cbv)
  refine .owner (by cbv) (by cbv) hchain (fun p hp => ?_) (by cbv)
  rw [List.mem_singleton.mp hp]
  cbv

/-! ## Answers -/

/-! ### Coherence

Verdicts are made where a ruling is read at a symbol, where an owner is unknown, where the
symbol is, where the walk over the owners ends, and where there is no target. -/

theorem coherent_verdictAt? {rule : List Annotation → Option Ruling} {v : Verdict}
    (h : g.verdictAt? rule s = some v) : v.Coherent := by
  rcases verdictAt?_eq_some_iff.mp h with ⟨r, -, rfl⟩ | ⟨-, r, -, rfl⟩
  · exact r.coherent_verdict _ _
  · exact r.coherent_verdict _ _

theorem coherent_defaultVerdict? {o : SymbolId} {v : Verdict}
    (h : g.defaultVerdict? t o = some v) : v.Coherent := by
  unfold defaultVerdict? at h
  split at h
  · cases h
    exact Verdict.coherent_undecided
  · exact coherent_verdictAt? h

theorem coherent_resolve (g : Graph) (s : SymbolId) (t : Target) : (g.resolve s t).Coherent := by
  unfold resolve
  split
  · exact Verdict.coherent_undecided
  cases hown : g.ownVerdict? s with
  | some v => exact coherent_verdictAt? hown
  | none =>
      cases hwalk : (g.owners s).findSome? (g.defaultVerdict? t) with
      | none => exact Verdict.coherent_undecided
      | some v =>
          obtain ⟨o, -, ho⟩ := List.exists_of_findSome?_eq_some hwalk
          exact coherent_defaultVerdict? ho

/-- The search comes to the shared verdict or to that of a finding. -/
theorem resolve_cases (g : Graph) (s : SymbolId) (t : Target) :
    g.resolve s t = .undecided ∨ ∃ f, g.resolve s t = .decided f :=
  Verdict.coherent_iff.mp (g.coherent_resolve s t)

theorem coherent_nullability (g : Graph) (s : SymbolId) : (g.nullability s).Coherent := by
  unfold nullability
  cases g.target? s with
  | none => exact Verdict.coherent_undecided
  | some t => exact g.coherent_resolve s t

theorem coherent_answer (g : Graph) (s : SymbolId) (asked : Option Target) :
    (g.answer s asked).Coherent := by
  cases asked with
  | none => exact g.coherent_nullability s
  | some t => exact g.coherent_resolve s t

theorem answer_eq_decided_iff {asked : Option Target} :
    g.answer s asked = .decided f ↔
      ∃ t, asked.or (g.target? s) = some t ∧ g.resolve s t = .decided f := by
  cases asked with
  | some t => simp [answer]
  | none =>
      rw [answer, nullability, Option.none_or]
      cases g.target? s <;> simp

/-- **Consistency.** The parts of an answer agree, whether a target was asked about or the
one that the symbol suggests. An answer other than the shared one stands at the level of the
symbol or of an owner up to the first package, and at that of the symbol itself if it allows
null. What an owner decides, other than the shared answer, is non-null, at the owner's
level. -/
theorem answer_consistent (hg : g.Built) (s : SymbolId) (asked : Option Target) :
    (g.answer s asked).Coherent ∧
    ((g.answer s asked).isShared = false →
      ∃ o, (o = s ∨ ∃ os, g.OwnerChain s os ∧ o ∈ os) ∧
        (g.answer s asked).level = .ofKind (g.symbol o).kind) ∧
    ((g.answer s asked).nullability? = some .weakNullable ∨
        (g.answer s asked).nullability? = some .strongNullable →
      (g.answer s asked).level = .ofKind (g.symbol s).kind) ∧
    ∀ t near o, asked.or (g.target? s) = some t →
      g.Decides s t (.owner near o) (g.answer s asked) → (g.answer s asked).isShared = false →
      (g.answer s asked).nullability? = some .nonNull ∧
        (g.answer s asked).level = .ofKind (g.symbol o).kind := by
  have hcoherent := g.coherent_answer s asked
  refine ⟨hcoherent, ?_⟩
  rcases Verdict.coherent_iff.mp hcoherent with hundecided | ⟨f, hf⟩
  · rw [hundecided]
    refine ⟨nofun, fun hnullable => ?_, fun _ _ _ _ _ => nofun⟩
    rcases hnullable with h | h <;> cases h
  · obtain ⟨t, -, ht⟩ := answer_eq_decided_iff.mp hf
    obtain ⟨-, stage, hstage⟩ := exists_decides hg ht
    rw [hf]
    refine ⟨fun _ => ?_, fun hnullable => ?_, fun t near o _ howner _ => ?_⟩
    · rcases hstage.origin with horigin | ⟨-, os, hos, o, ho, horigin⟩
      · exact ⟨s, Or.inl rfl, congrArg Level.ofKind horigin⟩
      · exact ⟨o, Or.inr ⟨os, hos, ho⟩, congrArg Level.ofKind horigin⟩
    · rcases hstage.origin with horigin | ⟨hnonNull, -⟩
      · exact congrArg Level.ofKind horigin
      · have hsome : (Verdict.decided f).nullability? = some .nonNull := congrArg some hnonNull
        rw [hsome] at hnullable
        rcases hnullable with h | h <;> cases h
    · obtain ⟨hnonNull, horigin⟩ := howner.owner_finding
      exact ⟨congrArg some hnonNull, congrArg Level.ofKind horigin⟩

theorem answer_parameterOfClass :
    parameterOfClass.answer 3 none = .decided classDefault ∧
      (parameterOfClass.answer 3 none).nullability? = some .nonNull ∧
      (parameterOfClass.answer 3 none).level = .cls := by
  have hanswer : parameterOfClass.answer 3 none = .decided classDefault := by cbv
  obtain ⟨-, -, -, howner⟩ := answer_consistent built_parameterOfClass 3 none
  obtain ⟨hnonNull, hlevel⟩ := howner .parameter [2] 1 (by cbv)
    (hanswer ▸ decides_parameterOfClass) (by rw [hanswer]; rfl)
  exact ⟨hanswer, hnonNull, hlevel⟩

end Graph

end Nullness
