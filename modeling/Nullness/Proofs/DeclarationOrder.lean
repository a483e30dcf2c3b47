import Mathlib
import Nullness.Proofs.Policy
import Nullness.Proofs.Precedence
import Nullness.Proofs.Reannotation

/-!
# The order of annotations

A symbol is judged by a list of annotations, and the order of that list decides which
annotation is named as the source. What is said about null depends on the order only
through expansions: an expansion keeps the first annotation of each type that it meets,
and two annotations of one type may say different things by their arguments.

- `Graph.ReadAt`: a symbol's annotations are looked at where another one is expanded.
- `Graph.order_decides_expansion`: swapping two annotations can turn a strong nullable
  field into a weak nullable one.
- `Graph.nullability?_resolve_of_perm`: where the annotations of one type agree, or the
  annotations in question are not looked at, the order has no influence.
-/

namespace Nullness

namespace Graph

variable {g : Graph} {as : List Annotation}

/-- Any two annotations of one type that are reached from `as` look the same to `f`. -/
def Uniform {β : Type} (g : Graph) (f : Annotation → β) (as : List Annotation) : Prop :=
  ∀ a b, g.Reached [] as a → g.Reached [] as b → a.type = b.type → f a = f b

/-- The annotations of `x` are looked at in what those of `i` expand to: it is the same symbol, or
a type that is reached. -/
def ReadAt (g : Graph) (i x : SymbolId) : Prop :=
  x = i ∨ ∃ a, g.Reached [] (g.annotations i) a ∧ a.type = x

/-- All annotations of a graph, in the order of the symbols that they are attached to. -/
def attached (g : Graph) : List Annotation := (List.range g.size).flatMap g.annotations

theorem mem_attached {i : SymbolId} {a : Annotation} (h : a ∈ g.annotations i) :
    a ∈ g.attached := by
  rcases Nat.lt_or_ge i g.size with hi | hi
  · exact List.mem_flatMap.mpr ⟨i, List.mem_range.mpr hi, h⟩
  · rw [g.annotations_of_le hi] at h
    cases h

/-- It suffices that the annotations of one type look the same throughout the graph. -/
theorem uniform_of_attached {β : Type} {f : Annotation → β}
    (h : ∀ a ∈ g.attached, ∀ b ∈ g.attached, a.type = b.type → f a = f b) {i : SymbolId} :
    g.Uniform f (g.annotations i) := by
  intro a b ha hb
  obtain ⟨j, hj⟩ := ha.attached_to
  obtain ⟨k, hk⟩ := hb.attached_to
  exact h a (mem_attached hj) b (mem_attached hk)

/-- An expansion holds an annotation with a property as soon as one is reached, if the
annotations of one type agree on the property. -/
theorem exists_mem_expand_iff {P : Annotation → Prop} (h : g.Uniform P as) :
    (∃ a ∈ g.expand as, P a) ↔ ∃ a, g.Reached [] as a ∧ P a := by
  constructor
  · rintro ⟨a, ha, hP⟩
    exact ⟨a, reached_of_mem_fresh ha, hP⟩
  · rintro ⟨a, ha, hP⟩
    obtain ⟨b, hb, hba⟩ := type_mem_of_reached ha
    have hagree : P b = P a := h b a (reached_of_mem_fresh hb) ha hba
    exact ⟨b, hb, hagree ▸ hP⟩

theorem known_expand (hknown : ∀ i, ∀ a ∈ g.annotations i, g.isUnknownType a = false)
    (i : SymbolId) : ∀ a ∈ g.expand (g.annotations i), g.isUnknownType a = false := by
  intro a ha
  obtain ⟨j, hj⟩ := (reached_of_mem_fresh ha).attached_to
  exact hknown j a hj

/-! ## A list that is not looked at -/

section NotRead
variable {x i : SymbolId} (h : ¬ g.ReadAt i x)
include h

theorem annotations_of_not_readAt : (g.withAnnotations x as).annotations i = g.annotations i := by
  rw [annotations_withAnnotations, if_neg fun hx => h (Or.inl hx.1)]

theorem expand_of_not_readAt :
    (g.withAnnotations x as).expand ((g.withAnnotations x as).annotations i) =
      g.expand (g.annotations i) := by
  -- the walk stays among the types that are reached
  have hsame : ∀ j, (∃ a, g.Reached [] (g.annotations i) a ∧ a.type = j) →
      (g.withAnnotations x as).annotations j = g.annotations j := by
    intro j hj
    rw [annotations_withAnnotations, if_neg]
    rintro ⟨rfl, -⟩
    exact h (Or.inr hj)
  have hclosed : ∀ j, (∃ a, g.Reached [] (g.annotations i) a ∧ a.type = j) →
      ∀ b ∈ g.annotations j, ∃ a, g.Reached [] (g.annotations i) a ∧ a.type = b.type := by
    rintro _ ⟨a, ha, rfl⟩ b hb
    exact ⟨b, .attached ha hb List.not_mem_nil, rfl⟩
  rw [annotations_of_not_readAt h, expand_eq_fresh, expand_eq_fresh]
  exact (fresh_congr hsame hclosed fun a ha => ⟨a, .listed ha List.not_mem_nil, rfl⟩).1

theorem ownVerdict?_of_not_readAt :
    (g.withAnnotations x as).ownVerdict? i = g.ownVerdict? i :=
  verdictAt?_congr (Symbol.kind_of_bare (g.bare_withAnnotations x as i))
    (by rw [annotations_of_not_readAt h, ruling_withAnnotations])
    (by rw [expand_of_not_readAt h, ruling_withAnnotations])

theorem defaultVerdict?_of_not_readAt (t : Target) :
    (g.withAnnotations x as).defaultVerdict? t i = g.defaultVerdict? t i := by
  have hbare := g.bare_withAnnotations x as i
  rw [defaultVerdict?, defaultVerdict?, Symbol.isUnknown_of_bare hbare,
    verdictAt?_congr (Symbol.kind_of_bare hbare)
      (by rw [annotations_of_not_readAt h, defaultRuling_withAnnotations])
      (by rw [expand_of_not_readAt h, defaultRuling_withAnnotations])]

end NotRead

/-! ## A permuted list -/

section Perm
variable {x : SymbolId} (hperm : as.Perm (g.annotations x))
include hperm

theorem perm_annotations (i : SymbolId) :
    ((g.withAnnotations x as).annotations i).Perm (g.annotations i) := by
  rw [annotations_withAnnotations]
  split
  · rename_i hx
    exact hx.1 ▸ hperm
  · exact List.Perm.refl _

theorem reached_perm_iff {i : SymbolId} {a : Annotation} :
    (g.withAnnotations x as).Reached [] ((g.withAnnotations x as).annotations i) a ↔
      g.Reached [] (g.annotations i) a :=
  have hmem := fun j b => (perm_annotations hperm j).mem_iff (a := b)
  ⟨.of_subset (fun j b => (hmem j b).mp) fun b => (hmem i b).mp,
    .of_subset (fun j b => (hmem j b).mpr) fun b => (hmem i b).mpr⟩

theorem exists_mem_expand_perm_iff {P : Annotation → Prop} {i : SymbolId}
    (h : g.Uniform P (g.annotations i)) :
    (∃ a ∈ (g.withAnnotations x as).expand ((g.withAnnotations x as).annotations i), P a) ↔
      ∃ a ∈ g.expand (g.annotations i), P a := by
  have h' : (g.withAnnotations x as).Uniform P ((g.withAnnotations x as).annotations i) :=
    fun a b ha hb =>
      h a b ((reached_perm_iff hperm).mp ha) ((reached_perm_iff hperm).mp hb)
  rw [exists_mem_expand_iff h, exists_mem_expand_iff h']
  exact exists_congr fun a => and_congr_left fun _ => reached_perm_iff hperm

variable (hknown : ∀ i, ∀ a ∈ g.annotations i, g.isUnknownType a = false)
include hknown

theorem known_expand_perm (i : SymbolId) :
    ∀ a ∈ (g.withAnnotations x as).expand ((g.withAnnotations x as).annotations i),
      g.isUnknownType a = false := by
  intro a ha
  obtain ⟨j, hj⟩ := ((reached_perm_iff hperm).mp (reached_of_mem_fresh ha)).attached_to
  exact hknown j a hj

theorem ownVerdict?_perm {s : SymbolId}
    (h : g.ReadAt s x → g.ruling (g.annotations s) = none →
      g.Uniform g.nullability? (g.annotations s)) :
    ((g.withAnnotations x as).ownVerdict? s).map Verdict.nullability? =
      (g.ownVerdict? s).map Verdict.nullability? := by
  by_cases hread : g.ReadAt s x
  swap
  · rw [ownVerdict?_of_not_readAt hread]
  have hdirect : (g.ruling ((g.withAnnotations x as).annotations s)).map Ruling.nullability? =
      (g.ruling (g.annotations s)).map Ruling.nullability? :=
    ruling_nullability_perm (perm_annotations hperm s) (hknown s)
  rw [ownVerdict?, ownVerdict?, map_verdictAt?, map_verdictAt?, ruling_withAnnotations,
    ruling_withAnnotations, hdirect]
  cases hr : g.ruling (g.annotations s) with
  | some r => rfl
  | none =>
      -- only now does it matter which annotation of a type is kept
      rw [Option.map_none, Option.none_or, Option.none_or]
      refine ruling_nullability_congr (known_expand hknown s)
        (known_expand_perm hperm hknown s) fun k => ?_
      exact exists_mem_expand_perm_iff hperm fun a b ha hb hab => by
        rw [h hread hr a b ha hb hab]

theorem defaultVerdict?_perm {t : Target} {o : SymbolId}
    (h : g.ReadAt o x → (∀ a ∈ g.annotations o, g.setsDefault a t = false) →
      g.Uniform (g.setsDefault · t) (g.annotations o)) :
    ((g.withAnnotations x as).defaultVerdict? t o).map Verdict.nullability? =
      (g.defaultVerdict? t o).map Verdict.nullability? := by
  by_cases hread : g.ReadAt o x
  swap
  · rw [defaultVerdict?_of_not_readAt hread]
  have hmem := fun a => (perm_annotations hperm o).mem_iff (a := a)
  have hdirect : (g.defaultRuling t ((g.withAnnotations x as).annotations o)).map
        Ruling.nullability? =
      (g.defaultRuling t (g.annotations o)).map Ruling.nullability? :=
    defaultRuling_nullability_congr (hknown o) (fun a ha => hknown o a ((hmem a).mp ha))
      (exists_congr fun a => and_congr_left fun _ => hmem a)
  rw [defaultVerdict?, defaultVerdict?,
    Symbol.isUnknown_of_bare (g.bare_withAnnotations x as o)]
  split
  · rfl
  · rw [map_verdictAt?, map_verdictAt?, defaultRuling_withAnnotations,
      defaultRuling_withAnnotations, hdirect]
    cases hr : g.defaultRuling t (g.annotations o) with
    | some r => rfl
    | none =>
        have hsilent := fun a ha => (defaultRuling_eq_none_iff.mp hr a ha).2
        rw [Option.map_none, Option.none_or, Option.none_or]
        refine defaultRuling_nullability_congr (known_expand hknown o)
          (known_expand_perm hperm hknown o) ?_
        exact exists_mem_expand_perm_iff hperm fun a b ha hb hab =>
          congrArg (· = true) (h hread hsilent a b ha hb hab)

end Perm

/-- A field `f` with two annotations, whose types carry `javax.annotation.Nonnull`: the
first with `MAYBE` for its `when` argument, the second with another constant. -/
def twoWhens (second : String) : Registry :=
  Registry.run {}
    [ .ensureClass "javax.annotation.Nonnull",
      .enumConstant "javax.annotation.meta.When" "MAYBE",
      .enumConstant "javax.annotation.meta.When" second,
      .ensureClass "p.A", .ensureClass "p.B", .ensureClass "p.C",
      .member .var "f" (some 9) false,
      .annotate 7 ⟨1, [⟨"when", .symbol 4⟩]⟩, .annotate 8 ⟨1, [⟨"when", .symbol 5⟩]⟩,
      .annotate 10 ⟨7, []⟩, .annotate 10 ⟨8, []⟩ ]

/-- The order of annotations decides which of two annotations of one type an expansion
keeps, and with it what is said about null. -/
theorem order_decides_expansion :
    ¬ ∀ g : Graph, g.Built → (∀ i, i < g.size → (g.symbol i).isUnknown = false) →
      ∀ (x : SymbolId) (as : List Annotation), as.Perm (g.annotations x) →
        ∀ (s : SymbolId) (t : Target),
          ((g.withAnnotations x as).resolve s t).nullability? = (g.resolve s t).nullability? := by
  intro h
  have hbuilt : (twoWhens "UNKNOWN").Built :=
    ⟨twoWhens "UNKNOWN", .run .empty (by decide), rfl⟩
  have hsame := h (twoWhens "UNKNOWN").toGraph hbuilt (by decide) 10 [⟨8, []⟩, ⟨7, []⟩]
    (List.Perm.swap _ _ _) 10 .field
  have hgiven : ((twoWhens "UNKNOWN").resolve 10 .field).nullability? = some .strongNullable := by
    cbv
  have hswapped : (((twoWhens "UNKNOWN").withAnnotations 10 [⟨8, []⟩, ⟨7, []⟩]).resolve 10
      .field).nullability? = some .weakNullable := by cbv
  rw [hgiven, hswapped] at hsame
  cases hsame

/-- **Order of annotations.** In a graph without unknown symbols, permuting the annotations
of a symbol changes nothing that is said about null, as long as annotations of one type
agree wherever an expansion that looks at the permuted ones has to choose among them: in what
they say, for the symbol in question if its own annotations say nothing, and in setting the
default, for each owner whose own annotations do not set it, up to the first owner that is not
silent. -/
theorem nullability?_resolve_of_perm (hg : g.Built)
    (hknown : ∀ i, i < g.size → (g.symbol i).isUnknown = false) {x : SymbolId}
    (hperm : as.Perm (g.annotations x)) {s : SymbolId} {t : Target}
    (hown : g.ReadAt s x → g.ruling (g.annotations s) = none →
      g.Uniform g.nullability? (g.annotations s))
    (howners : g.ownVerdict? s = none → ∀ near o far, g.OwnerChain s (near ++ o :: far) →
      (∀ p ∈ near, g.Silent t p) → g.ReadAt o x →
      (∀ a ∈ g.annotations o, g.setsDefault a t = false) →
        g.Uniform (g.setsDefault · t) (g.annotations o)) :
    ((g.withAnnotations x as).resolve s t).nullability? = (g.resolve s t).nullability? := by
  have hsound := hg.sound
  have htypes : ∀ i, ∀ a ∈ g.annotations i, g.isUnknownType a = false :=
    fun i a ha => hknown a.type (hsound.below i a ha).type_lt
  refine resolve_congr Verdict.nullability?
    (Symbol.isUnknown_of_bare (g.bare_withAnnotations x as s))
    (g.owners_withAnnotations x as s) (ownVerdict?_perm hperm htypes hown)
    fun hnone near o far hsplit hnear => defaultVerdict?_perm hperm htypes ?_
  exact howners hnone near o far (hsplit ▸ hsound.ownerChain_owners s)
    fun p hp => defaultVerdict?_eq_none_iff.mp (hnear p hp)

/-- `MAYBE` and `NEVER` say the same, so it does not matter which is kept. -/
theorem nullability?_twoWhens_swapped :
    (((twoWhens "NEVER").withAnnotations 10 [⟨8, []⟩, ⟨7, []⟩]).resolve 10 .field).nullability? =
      some .strongNullable := by
  have hbuilt : (twoWhens "NEVER").Built := ⟨twoWhens "NEVER", .run .empty (by decide), rfl⟩
  have hsame := nullability?_resolve_of_perm (x := 10) (s := 10) (t := .field) hbuilt (by decide)
    (List.Perm.swap _ _ _) (fun _ _ => uniform_of_attached (by decide +kernel))
    fun _ _ _ _ _ _ _ _ => uniform_of_attached (by decide +kernel)
  exact hsame.trans (by cbv)

end Graph

end Nullness
