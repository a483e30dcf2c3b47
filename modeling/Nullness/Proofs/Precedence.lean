import Mathlib
import Nullness.Proofs.Expansion
import Nullness.Proofs.Resolution
import Nullness.Proofs.Verdicts

/-!
# Which annotation decides

The search for the effective nullability of a symbol, told without the search: its own
annotations come first, then what these expand to, then the nearest owner that is not
silent about the target.

- `Graph.Silent`, `Graph.Says`: an owner says nothing about a target, or says this.
- `Graph.Judged`: the verdict on a symbol as a target.
- `Graph.resolve_eq_iff_judged`: the search finds that verdict and no other.
-/

namespace Nullness

namespace Graph

variable {g : Graph} {t : Target} {o : SymbolId}

/-- An owner says nothing about a target: nothing about it is unknown, and no annotation
that is attached to it, or that these expand to, sets the default. -/
structure Silent (g : Graph) (t : Target) (o : SymbolId) : Prop where
  known : (g.symbol o).isUnknown = false
  known_types : ∀ a ∈ g.expand (g.annotations o), g.isUnknownType a = false
  direct : ∀ a ∈ g.annotations o, g.setsDefault a t = false
  expanded : ∀ a ∈ g.expand (g.annotations o), g.setsDefault a t = false

/-- What an owner says about a target that it encloses. An unknown owner, or one with an
annotation of unknown type, leaves everything open. Otherwise its first default for the
target counts, and without one the first among what its annotations expand to, if no
type of these is unknown. -/
inductive Says (g : Graph) (t : Target) (o : SymbolId) : Verdict → Prop
  | unknown : (g.symbol o).isUnknown = true ∨ (∃ a ∈ g.annotations o, g.isUnknownType a = true) →
      Says g t o .undecided
  | direct {a : Annotation} : (g.symbol o).isUnknown = false →
      (∀ b ∈ g.annotations o, g.isUnknownType b = false) →
      g.FirstDefault t (g.annotations o) a →
      Says g t o (.decided ⟨.nonNull, (g.symbol o).kind, a, false⟩)
  | unknownExpanded : (g.symbol o).isUnknown = false →
      (∀ b ∈ g.annotations o, g.isUnknownType b = false ∧ g.setsDefault b t = false) →
      (∃ a ∈ g.expand (g.annotations o), g.isUnknownType a = true) →
      Says g t o .undecided
  | expanded {a : Annotation} : (g.symbol o).isUnknown = false →
      (∀ b ∈ g.annotations o, g.isUnknownType b = false ∧ g.setsDefault b t = false) →
      (∀ b ∈ g.expand (g.annotations o), g.isUnknownType b = false) →
      g.FirstDefault t (g.expand (g.annotations o)) a →
      Says g t o (.decided ⟨.nonNull, (g.symbol o).kind, a, true⟩)

/-- A finding at an owner is non-null, at the owner's level. The owner is known, as are the
types that had to be read. -/
theorem Says.decided_cases {f : Finding} (h : g.Says t o (.decided f)) :
    (f.nullability = .nonNull ∧ f.origin = (g.symbol o).kind) ∧
      (g.symbol o).isUnknown = false ∧ (∀ a ∈ g.annotations o, g.isUnknownType a = false) ∧
      (f.viaMeta = true → ∀ a ∈ g.expand (g.annotations o), g.isUnknownType a = false) := by
  generalize hv : Verdict.decided f = v at h
  cases h with
  | unknown _ => exact (Verdict.decided_ne_undecided hv).elim
  | unknownExpanded _ _ _ => exact (Verdict.decided_ne_undecided hv).elim
  | direct hknown hdirect _ =>
      cases Verdict.decided_injective hv
      exact ⟨⟨rfl, rfl⟩, hknown, hdirect, nofun⟩
  | expanded hknown hdirect hexpanded _ =>
      cases Verdict.decided_injective hv
      exact ⟨⟨rfl, rfl⟩, hknown, fun a ha => (hdirect a ha).1, fun _ => hexpanded⟩

/-- The verdict on a known symbol as a target. -/
inductive Judged (g : Graph) (s : SymbolId) (t : Target) : Verdict → Prop
  /-- The annotations of the symbol say something. -/
  | direct {r : Ruling} : g.ruling (g.annotations s) = some r →
      Judged g s t (r.verdict (g.symbol s).kind false)
  /-- They say nothing, but what they expand to does. -/
  | expanded {r : Ruling} : g.ruling (g.annotations s) = none →
      g.ruling (g.expand (g.annotations s)) = some r →
      Judged g s t (r.verdict (g.symbol s).kind true)
  /-- Neither says anything, and all owners are silent. -/
  | silent {os : List SymbolId} : g.ruling (g.annotations s) = none →
      g.ruling (g.expand (g.annotations s)) = none → g.OwnerChain s os →
      (∀ o ∈ os, g.Silent t o) → Judged g s t .undecided
  /-- Neither says anything, and `o` is the nearest owner that is not silent. -/
  | owner {near far : List SymbolId} {o : SymbolId} {v : Verdict} :
      g.ruling (g.annotations s) = none → g.ruling (g.expand (g.annotations s)) = none →
      g.OwnerChain s (near ++ o :: far) → (∀ p ∈ near, g.Silent t p) → ¬ g.Silent t o →
      g.Says t o v → Judged g s t v

/-! ## Owners -/

/-- An annotation of unknown type is met again in the expansion. -/
theorem known_of_known_expand {as : List Annotation}
    (h : ∀ a ∈ g.expand as, g.isUnknownType a = false) :
    ∀ a ∈ as, g.isUnknownType a = false := by
  intro a ha
  obtain ⟨b, hb, hba⟩ := type_mem_expand (g := g) ha
  have hknown := h b hb
  rwa [isUnknownType, hba] at hknown

theorem defaultVerdict?_eq_none_iff : g.defaultVerdict? t o = none ↔ g.Silent t o := by
  unfold defaultVerdict?
  split
  · rename_i hu
    exact ⟨nofun, fun h => absurd h.known (by simp [hu])⟩
  · rename_i hu
    rw [verdictAt?_eq_none_iff, defaultRuling_eq_none_iff, defaultRuling_eq_none_iff]
    constructor
    · rintro ⟨hdirect, hexpanded⟩
      exact ⟨by simpa using hu, fun a ha => (hexpanded a ha).1, fun a ha => (hdirect a ha).2,
        fun a ha => (hexpanded a ha).2⟩
    · intro h
      have hknown := known_of_known_expand h.known_types
      exact ⟨fun a ha => ⟨hknown a ha, h.direct a ha⟩,
        fun a ha => ⟨h.known_types a ha, h.expanded a ha⟩⟩

/-- What a list of defaults says, for a symbol of a given kind. -/
theorem defaultRuling_verdict_iff {as : List Annotation} {k : Kind} {viaMeta : Bool} {v : Verdict} :
    (∃ r, g.defaultRuling t as = some r ∧ r.verdict k viaMeta = v) ↔
      ((∃ a ∈ as, g.isUnknownType a = true) ∧ v = .undecided) ∨
      ((∀ a ∈ as, g.isUnknownType a = false) ∧
        ∃ a, g.FirstDefault t as a ∧ v = .decided ⟨.nonNull, k, a, viaMeta⟩) := by
  constructor
  · rintro ⟨r, hr, rfl⟩
    cases r with
    | ambiguous => exact Or.inl ⟨defaultRuling_eq_ambiguous_iff.mp hr, rfl⟩
    | found n a =>
        obtain ⟨hknown, rfl, hfirst⟩ := defaultRuling_eq_found_iff.mp hr
        exact Or.inr ⟨hknown, a, hfirst, rfl⟩
  · rintro (⟨hu, rfl⟩ | ⟨hknown, a, hfirst, rfl⟩)
    · exact ⟨.ambiguous, defaultRuling_eq_ambiguous_iff.mpr hu, rfl⟩
    · exact ⟨.found .nonNull a, defaultRuling_eq_found_iff.mpr ⟨hknown, rfl, hfirst⟩, rfl⟩

theorem defaultVerdict?_eq_some_iff {v : Verdict} :
    g.defaultVerdict? t o = some v ↔ g.Says t o v := by
  unfold defaultVerdict?
  split
  · rename_i hu
    have hne : (g.symbol o).isUnknown ≠ false := by simp [hu]
    constructor
    · intro hv
      cases hv
      exact .unknown (Or.inl hu)
    · intro h
      cases h with
      | unknown _ => rfl
      | direct hk _ _ => exact absurd hk hne
      | unknownExpanded hk _ _ => exact absurd hk hne
      | expanded hk _ _ _ => exact absurd hk hne
  · rename_i hu
    have hk : (g.symbol o).isUnknown = false := by simpa using hu
    rw [verdictAt?_eq_some_iff, defaultRuling_verdict_iff, defaultRuling_verdict_iff,
      defaultRuling_eq_none_iff]
    constructor
    · rintro ((⟨hdirect, rfl⟩ | ⟨hdirect, a, hfirst, rfl⟩) |
        ⟨hnone, ⟨hexpanded, rfl⟩ | ⟨hexpanded, a, hfirst, rfl⟩⟩)
      · exact .unknown (Or.inr hdirect)
      · exact .direct hk hdirect hfirst
      · exact .unknownExpanded hk hnone hexpanded
      · exact .expanded hk hnone hexpanded hfirst
    · intro h
      cases h with
      | unknown h =>
          rcases h with hu | hdirect
          · rw [hk] at hu
            cases hu
          · exact Or.inl (Or.inl ⟨hdirect, rfl⟩)
      | direct _ hdirect hfirst => exact Or.inl (Or.inr ⟨hdirect, _, hfirst, rfl⟩)
      | unknownExpanded _ hnone hexpanded => exact Or.inr ⟨hnone, Or.inl ⟨hexpanded, rfl⟩⟩
      | expanded _ hnone hexpanded hfirst =>
          exact Or.inr ⟨hnone, Or.inr ⟨hexpanded, _, hfirst, rfl⟩⟩

/-! ## The whole search -/

theorem walk_eq_none_iff {os : List SymbolId} :
    os.findSome? (g.defaultVerdict? t) = none ↔ ∀ o ∈ os, g.Silent t o := by
  rw [List.findSome?_eq_none_iff]
  exact forall₂_congr fun o _ => defaultVerdict?_eq_none_iff

/-- The walk over the owners ends with the nearest one that is not silent. -/
theorem walk_eq_some_iff {os : List SymbolId} {v : Verdict} :
    os.findSome? (g.defaultVerdict? t) = some v ↔
      ∃ near o far, os = near ++ o :: far ∧ (∀ p ∈ near, g.Silent t p) ∧ ¬ g.Silent t o ∧
        g.Says t o v := by
  rw [List.findSome?_eq_some_iff]
  constructor
  · rintro ⟨near, o, far, hsplit, ho, hnear⟩
    have hsilent : ¬ g.Silent t o := fun h => by
      rw [defaultVerdict?_eq_none_iff.mpr h] at ho
      cases ho
    exact ⟨near, o, far, hsplit, fun p hp => defaultVerdict?_eq_none_iff.mp (hnear p hp),
      hsilent, defaultVerdict?_eq_some_iff.mp ho⟩
  · rintro ⟨near, o, far, hsplit, hnear, -, hsays⟩
    exact ⟨near, o, far, hsplit, defaultVerdict?_eq_some_iff.mpr hsays,
      fun p hp => defaultVerdict?_eq_none_iff.mpr (hnear p hp)⟩

theorem resolve_eq_of_known {s : SymbolId} (hs : (g.symbol s).isUnknown = false) :
    g.resolve s t =
      ((g.ownVerdict? s).or ((g.owners s).findSome? (g.defaultVerdict? t))).getD .undecided := by
  have h := view_resolve id g s t
  rw [hs] at h
  simpa using h

/-- **Precedence.** The search for the effective nullability of a known symbol finds what
is judged of it, and nothing else. -/
theorem resolve_eq_iff_judged (hg : g.Built) {s : SymbolId}
    (hs : (g.symbol s).isUnknown = false) (t : Target) (v : Verdict) :
    g.resolve s t = v ↔ g.Judged s t v := by
  have hchain := hg.sound.ownerChain_owners s
  rw [resolve_eq_of_known hs]
  constructor
  · -- the stages of the search, in order, each with the way to be judged that it stands for
    rintro rfl
    cases hown : g.ownVerdict? s with
    | some w =>
        rcases verdictAt?_eq_some_iff.mp hown with ⟨r, hr, rfl⟩ | ⟨hn, r, hr, rfl⟩
        · exact .direct hr
        · exact .expanded hn hr
    | none =>
        obtain ⟨hdirect, hexpanded⟩ := verdictAt?_eq_none_iff.mp hown
        rw [Option.none_or]
        cases hwalk : (g.owners s).findSome? (g.defaultVerdict? t) with
        | none => exact .silent hdirect hexpanded hchain (walk_eq_none_iff.mp hwalk)
        | some w =>
            obtain ⟨near, o, far, hsplit, hnear, hsilent, hsays⟩ := walk_eq_some_iff.mp hwalk
            exact .owner hdirect hexpanded (hsplit ▸ hchain) hnear hsilent hsays
  · intro h
    cases h with
    | direct hr =>
        rw [ownVerdict?, verdictAt?_eq_some_iff.mpr (Or.inl ⟨_, hr, rfl⟩)]
        rfl
    | expanded hn hr =>
        rw [ownVerdict?, verdictAt?_eq_some_iff.mpr (Or.inr ⟨hn, _, hr, rfl⟩)]
        rfl
    | silent hdirect hexpanded hos hsilent =>
        rw [hos.unique hchain] at hsilent
        rw [ownVerdict?, verdictAt?_eq_none_iff.mpr ⟨hdirect, hexpanded⟩,
          walk_eq_none_iff.mpr hsilent]
        rfl
    | owner hdirect hexpanded hos hnear hsilent hsays =>
        -- a symbol has one chain of owners, so this is the one that is walked
        have hwalk := walk_eq_some_iff.mpr
          ⟨_, _, _, hchain.unique hos, hnear, hsilent, hsays⟩
        rw [ownVerdict?, verdictAt?_eq_none_iff.mpr ⟨hdirect, hexpanded⟩, hwalk]
        rfl

/-- A parameter `x` of a method without annotations, in a class with an annotation whose
type carries a default for parameters. -/
def parameterOfClass : Registry :=
  Registry.run {}
    [ .package "p", .member .cls "C" (some 0) false, .member .method "m" (some 1) false,
      .member .var "x" (some 2) false, .ensureClass "p.Checked",
      .ensureClass "org.eclipse.jdt.annotation.NonNullByDefault",
      .enumConstant "org.eclipse.jdt.annotation.DefaultLocation" "PARAMETER",
      .annotate 4 ⟨6, [⟨"value", .list [.symbol 8]⟩]⟩, .annotate 1 ⟨4, []⟩ ]

theorem judged_parameterOfClass :
    parameterOfClass.Judged 3 .parameter
      (.decided ⟨.nonNull, .cls, ⟨6, [⟨"value", .list [.symbol 8]⟩]⟩, true⟩) := by
  have hbuilt : parameterOfClass.Built := ⟨parameterOfClass, .run .empty (by decide), rfl⟩
  exact (resolve_eq_iff_judged hbuilt (by decide) .parameter _).mp (by cbv)

end Graph

end Nullness
