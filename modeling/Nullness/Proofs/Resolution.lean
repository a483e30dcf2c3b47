import Nullness.Resolve
import Nullness.Proofs.Ruling

/-!
# Owners, and what a resolution reads

- `Graph.OwnerChain`: the owners of a symbol, nearest first, up to and with the first
  package, read off the owner links alone. In a sound graph every symbol has exactly
  one chain, the one that `owners` computes (`Graph.Sound.ownerChain_iff`).
- `Graph.resolve_congr`: two graphs agree on a view of a result when they agree on it
  for the symbol and for each owner that is come to.
- `Graph.resolve_eq_of_sameRulings`: they agree on the result when all rulings on the
  symbol and its owners are the same.
-/

namespace Nullness

namespace Graph

variable {g g' : Graph}

/-! ## The chain of owners -/

/-- The owners of a symbol, nearest first. The chain ends with the first package, or
with a symbol that has no owner; that of a package is empty. -/
inductive OwnerChain (g : Graph) : SymbolId → List SymbolId → Prop
  | package {s : SymbolId} : (g.symbol s).kind = .pkg → OwnerChain g s []
  | root {s : SymbolId} : (g.symbol s).kind ≠ .pkg → (g.symbol s).owner = none →
      OwnerChain g s []
  | owned {s o : SymbolId} {os : List SymbolId} : (g.symbol s).kind ≠ .pkg →
      (g.symbol s).owner = some o → OwnerChain g o os → OwnerChain g s (o :: os)

theorem OwnerChain.unique {s : SymbolId} {os : List SymbolId} (h : g.OwnerChain s os) :
    ∀ {os' : List SymbolId}, g.OwnerChain s os' → os = os' := by
  induction h with
  | package hp =>
      intro os' h'
      cases h' with
      | package _ => rfl
      | root _ _ => rfl
      | owned hk _ _ => exact absurd hp hk
  | root hk hn =>
      intro os' h'
      cases h' with
      | package _ => rfl
      | root _ _ => rfl
      | owned _ ho _ =>
          rw [hn] at ho
          cases ho
  | owned hk ho _ ih =>
      intro os' h'
      cases h' with
      | package hp => exact absurd hp hk
      | root _ hn =>
          rw [hn] at ho
          cases ho
      | owned _ ho' hrest =>
          rw [ho] at ho'
          cases ho'
          rw [ih hrest]

theorem Sound.ownerChain_owners (hg : g.Sound) (s : SymbolId) : g.OwnerChain s (g.owners s) := by
  induction s using Graph.owners.induct g with
  | case1 s hp =>
      rw [owners, if_pos hp]
      exact .package hp
  | case2 s hk hn =>
      rw [owners, if_neg hk]
      simp only [hn]
      exact .root hk hn
  | case3 s hk o ho hlt ih =>
      rw [owners, if_neg hk]
      simp only [ho, if_pos hlt]
      exact .owned hk ho ih
  | case4 s hk o ho hge => exact absurd (hg.owner_lt s o ho) hge

theorem Sound.ownerChain_iff (hg : g.Sound) {s : SymbolId} {os : List SymbolId} :
    g.OwnerChain s os ↔ os = g.owners s :=
  ⟨fun h => h.unique (hg.ownerChain_owners s), fun h => h ▸ hg.ownerChain_owners s⟩

theorem OwnerChain.lt (hg : g.Sound) {s o : SymbolId} {os : List SymbolId}
    (h : g.OwnerChain s os) (ho : o ∈ os) : o < s := by
  induction h with
  | package _ => cases ho
  | root _ _ => cases ho
  | owned _ hp _ ih =>
      have hlt := hg.owner_lt _ _ hp
      rcases List.mem_cons.mp ho with rfl | ho
      · exact hlt
      · exact Nat.lt_trans (ih ho) hlt

/-- The owners of a symbol are the same in two graphs that hold the same symbols up to it,
but for what is attached to these. -/
theorem owners_congr {s : SymbolId}
    (h : ∀ i, i ≤ s → (g'.symbol i).bare = (g.symbol i).bare) : g'.owners s = g.owners s := by
  induction s using Graph.owners.induct g with
  | case1 s hp =>
      have hs := h s (Nat.le_refl s)
      rw [owners, owners, if_pos hp, if_pos (Symbol.kind_of_bare hs ▸ hp)]
  | case2 s hk hn =>
      have hs := h s (Nat.le_refl s)
      rw [owners, owners, Symbol.kind_of_bare hs, Symbol.owner_of_bare hs]
      simp only [hn]
  | case3 s hk o ho hlt ih =>
      have hs := h s (Nat.le_refl s)
      have hrest := ih fun i hi => h i (Nat.le_of_lt (Nat.lt_of_le_of_lt hi hlt))
      rw [owners, owners, Symbol.kind_of_bare hs, Symbol.owner_of_bare hs]
      simp only [ho, hrest]
  | case4 s hk o ho hge =>
      have hs := h s (Nat.le_refl s)
      rw [owners, owners, Symbol.kind_of_bare hs, Symbol.owner_of_bare hs]
      simp only [ho, if_neg hge]

/-! ## What one symbol says -/

section VerdictAt
variable {rule : List Annotation → Option Ruling} {i : SymbolId}

theorem verdictAt?_eq_none_iff :
    g.verdictAt? rule i = none ↔
      rule (g.annotations i) = none ∧ rule (g.expand (g.annotations i)) = none := by
  unfold verdictAt?
  dsimp only
  cases h : rule (g.symbol i).annotations with
  | some r => exact ⟨nofun, fun hn => by rw [annotations, h] at hn; cases hn.1⟩
  | none =>
      rw [Option.map_eq_none_iff]
      exact ⟨fun hn => ⟨h, hn⟩, fun hn => hn.2⟩

theorem verdictAt?_eq_some_iff {v : Verdict} :
    g.verdictAt? rule i = some v ↔
      (∃ r, rule (g.annotations i) = some r ∧ r.verdict (g.symbol i).kind false = v) ∨
      (rule (g.annotations i) = none ∧ ∃ r, rule (g.expand (g.annotations i)) = some r ∧
        r.verdict (g.symbol i).kind true = v) := by
  unfold verdictAt?
  dsimp only
  rw [show g.annotations i = (g.symbol i).annotations from rfl]
  cases h : rule (g.symbol i).annotations with
  | some r =>
      constructor
      · exact fun hv => Or.inl ⟨r, rfl, Option.some.inj hv⟩
      · rintro (⟨r', hr', rfl⟩ | ⟨hn, -⟩)
        · rw [Option.some.inj hr']
        · cases hn
  | none =>
      rw [Option.map_eq_some_iff]
      constructor
      · exact fun hv => Or.inr ⟨rfl, hv⟩
      · rintro (⟨r, hr, -⟩ | ⟨-, hv⟩)
        · cases hr
        · exact hv

theorem verdictAt?_congr {rule' : List Annotation → Option Ruling}
    (hkind : (g'.symbol i).kind = (g.symbol i).kind)
    (hdirect : rule' (g'.annotations i) = rule (g.annotations i))
    (hexpanded : rule' (g'.expand (g'.annotations i)) = rule (g.expand (g.annotations i))) :
    g'.verdictAt? rule' i = g.verdictAt? rule i := by
  rw [annotations, annotations] at hdirect hexpanded
  rw [verdictAt?, verdictAt?, hkind, hdirect, hexpanded]

/-- What is found at a symbol is found in its annotations, else in their expansion. -/
theorem map_verdictAt? (g : Graph) (rule : List Annotation → Option Ruling) (i : SymbolId) :
    (g.verdictAt? rule i).map Verdict.nullability? =
      ((rule (g.annotations i)).map Ruling.nullability?).or
        ((rule (g.expand (g.annotations i))).map Ruling.nullability?) := by
  have hview : ∀ (k : Kind) (viaMeta : Bool) (r : Ruling),
      (r.verdict k viaMeta).nullability? = r.nullability? := fun _ _ r => by cases r <;> rfl
  unfold verdictAt?
  dsimp only
  rw [show g.annotations i = (g.symbol i).annotations from rfl]
  cases rule (g.symbol i).annotations with
  | some r => exact congrArg some (hview _ _ r)
  | none =>
      rw [Option.map_map, Option.map_none, Option.none_or]
      exact congrArg (Option.map · _) (funext (hview _ _))

end VerdictAt

/-! ## Two graphs -/

/-- A view of a result comes from the first of these that is there: what the symbol's own
annotations say, and what its owners say, nearest first. -/
theorem view_resolve {β : Type} (view : Verdict → β) (g : Graph) (s : SymbolId) (t : Target) :
    view (g.resolve s t) =
      if (g.symbol s).isUnknown then view .undecided
      else (((g.ownVerdict? s).map view).or
        ((g.owners s).findSome? fun o => (g.defaultVerdict? t o).map view)).getD
          (view .undecided) := by
  have hmap : ((g.owners s).findSome? fun o => (g.defaultVerdict? t o).map view) =
      ((g.owners s).findSome? (g.defaultVerdict? t)).map view := List.map_findSome?.symm
  rw [resolve, hmap]
  split
  · rfl
  · cases g.ownVerdict? s with
    | some v => rfl
    | none =>
        cases (g.owners s).findSome? (g.defaultVerdict? t) with
        | none => rfl
        | some v => rfl

/-- Walks over owners find the same if each owner that is come to says the same. -/
theorem findSome?_map_congr {α β γ : Type} {f f' : α → Option β} {view : β → γ} {os : List α}
    (h : ∀ near o far, os = near ++ o :: far → (∀ p ∈ near, f p = none) →
      (f' o).map view = (f o).map view) :
    (os.findSome? fun o => (f' o).map view) = os.findSome? fun o => (f o).map view := by
  induction os with
  | nil => rfl
  | cons o os ih =>
      rw [List.findSome?_cons, List.findSome?_cons, h [] o os rfl nofun]
      cases ho : f o with
      | some v => rfl
      | none =>
          refine ih fun near p far hsplit hnear => ?_
          exact h (o :: near) p far (congrArg (o :: ·) hsplit)
            (List.forall_mem_cons.mpr ⟨ho, hnear⟩)

/-- A view of a result is the same in two graphs when it is the same for what the
symbol's own annotations say and, if they say nothing, for what each owner says, up to the
first one that says something. -/
theorem resolve_congr {β : Type} (view : Verdict → β) {s : SymbolId} {t : Target}
    (hs : (g'.symbol s).isUnknown = (g.symbol s).isUnknown) (howners : g'.owners s = g.owners s)
    (hown : (g'.ownVerdict? s).map view = (g.ownVerdict? s).map view)
    (hdefault : g.ownVerdict? s = none → ∀ near o far, g.owners s = near ++ o :: far →
      (∀ p ∈ near, g.defaultVerdict? t p = none) →
      (g'.defaultVerdict? t o).map view = (g.defaultVerdict? t o).map view) :
    view (g'.resolve s t) = view (g.resolve s t) := by
  rw [view_resolve view g', view_resolve view g, hs, howners, hown]
  -- the owners are asked only if the symbol itself says nothing
  cases hg : g.ownVerdict? s with
  | some v => rfl
  | none => rw [findSome?_map_congr (hdefault hg)]

/-- The symbol at a position is the same in two graphs but for what is attached to it, and
all rulings on what is attached to it are the same. -/
structure SameRulings (g g' : Graph) (i : SymbolId) : Prop where
  bare : (g'.symbol i).bare = (g.symbol i).bare
  direct : g'.ruling (g'.annotations i) = g.ruling (g.annotations i)
  expanded : g'.ruling (g'.expand (g'.annotations i)) = g.ruling (g.expand (g.annotations i))
  directDefault : ∀ t, g'.defaultRuling t (g'.annotations i) = g.defaultRuling t (g.annotations i)
  expandedDefault : ∀ t, g'.defaultRuling t (g'.expand (g'.annotations i)) =
    g.defaultRuling t (g.expand (g.annotations i))

/-- A result is the same in two graphs with the same rulings on the symbol and its owners. -/
theorem resolve_eq_of_sameRulings {s : SymbolId} (howners : g'.owners s = g.owners s)
    (hs : g.SameRulings g' s) (hos : ∀ o ∈ g.owners s, g.SameRulings g' o) (t : Target) :
    g'.resolve s t = g.resolve s t := by
  have hown : g'.ownVerdict? s = g.ownVerdict? s :=
    verdictAt?_congr (Symbol.kind_of_bare hs.bare) hs.direct hs.expanded
  have hdefault : ∀ o ∈ g.owners s, g'.defaultVerdict? t o = g.defaultVerdict? t o := by
    intro o ho
    have hsame := hos o ho
    rw [defaultVerdict?, defaultVerdict?, Symbol.isUnknown_of_bare hsame.bare,
      verdictAt?_congr (Symbol.kind_of_bare hsame.bare) (hsame.directDefault t)
        (hsame.expandedDefault t)]
  refine resolve_congr id (Symbol.isUnknown_of_bare hs.bare) howners
    (congrArg (Option.map id) hown) fun _ near o far hsplit _ => ?_
  exact congrArg (Option.map id)
    (hdefault o (hsplit ▸ List.mem_append_right near List.mem_cons_self))

end Graph

end Nullness
