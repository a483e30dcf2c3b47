import Mathlib
import Nullness.Proofs.Reannotation

/-!
# Annotations that say nothing

An annotation type is irrelevant when it is known, stands in no table and carries no
annotations. Inserting an annotation of such a type anywhere makes every walk that comes
by enter one more type and keep one more annotation. Both are invisible: the walks of
the two graphs stay equal up to the irrelevant type, and no ruling reads it.

- `Graph.Irrelevant`: the types that say nothing.
- `Graph.fresh_of_met`: a walk that has met the type from the start keeps the same
  annotations, less those of the type.
- `Graph.fresh_eq_of_without`: such a walk depends on nothing that is of the type.
- `Graph.resolve_insert`: inserting an annotation of an irrelevant type changes no result.
-/

namespace Nullness

/-- The annotations of a list that are not of type `T`. -/
def without (T : SymbolId) (as : List Annotation) : List Annotation :=
  as.filter (·.type != T)

section Without
variable {T : SymbolId} {a : Annotation} {as bs : List Annotation}

@[simp] theorem without_nil : without T [] = [] := rfl

theorem without_cons_of_eq (h : a.type = T) : without T (a :: as) = without T as :=
  List.filter_cons_of_neg (by simp [h])

theorem without_cons_of_ne (h : a.type ≠ T) : without T (a :: as) = a :: without T as :=
  List.filter_cons_of_pos (by simp [h])

theorem without_append : without T (as ++ bs) = without T as ++ without T bs :=
  List.filter_append _ _

theorem mem_without : a ∈ without T as ↔ a ∈ as ∧ a.type ≠ T := by
  simp [without]

theorem without_eq_filter : without T as = as.filter (·.type ∉ [T]) := by
  apply List.filter_congr
  intro a _
  rw [Bool.eq_iff_iff]
  simp

end Without

namespace Graph

variable {g g' : Graph} {seen seen' : List SymbolId} {as bs : List Annotation} {T : SymbolId}

/-! ## Walks -/

/-- A walk for which `T` is met from the start keeps the same annotations, less those of
type `T`, provided that nothing else is attached to `T`. -/
theorem fresh_of_met (hT : ∀ a ∈ g.annotations T, a.type = T)
    (hmet : ∀ i, i ∈ seen' ↔ i = T ∨ i ∈ seen) :
    g.fresh seen' as = without T (g.fresh seen as) := by
  have hclosed : g.Closed [T] := by simpa [Closed] using hT
  rw [fresh_of_closed (by simpa using hmet) hclosed, without_eq_filter]

/-- A walk that has met `T` passes over the annotations of type `T`. -/
theorem fresh_without (h : T ∈ seen) :
    g.fresh seen (without T as) = g.fresh seen as ∧
      g.seenAfter seen (without T as) = g.seenAfter seen as := by
  induction as generalizing seen with
  | nil => exact ⟨rfl, rfl⟩
  | cons a as ih =>
      by_cases ha : a.type = T
      · have hmem : a.type ∈ seen := ha ▸ h
        rw [without_cons_of_eq ha, fresh_cons_of_mem hmem, seenAfter_cons_of_mem hmem]
        exact ih h
      · rw [without_cons_of_ne ha]
        by_cases hmem : a.type ∈ seen
        · rw [fresh_cons_of_mem hmem, fresh_cons_of_mem hmem, seenAfter_cons_of_mem hmem,
            seenAfter_cons_of_mem hmem]
          exact ih h
        · have hmid : T ∈ g.seenAfter (a.type :: seen) (g.annotations a.type) :=
            mem_seenAfter_of_mem (List.mem_cons_of_mem _ h)
          obtain ⟨hfresh, hseen⟩ := ih hmid
          rw [fresh_cons_of_not_mem hmem, fresh_cons_of_not_mem hmem,
            seenAfter_cons_of_not_mem hmem, seenAfter_cons_of_not_mem hmem, hfresh, hseen]
          exact ⟨rfl, rfl⟩

section SameWithout
variable (hsame : ∀ i, without T (g'.annotations i) = without T (g.annotations i))
include hsame

/-- Walks that have met `T` are the same in two graphs that attach the same annotations,
less those of type `T`. -/
theorem fresh_eq_of_without (h : T ∈ seen) :
    g'.fresh seen as = g.fresh seen as ∧ g'.seenAfter seen as = g.seenAfter seen as := by
  induction seen, as using g.fresh_induct with
  | nil seen => simp
  | skip seen a rest hmem ih =>
      rw [fresh_cons_of_mem hmem, fresh_cons_of_mem hmem, seenAfter_cons_of_mem hmem,
        seenAfter_cons_of_mem hmem]
      exact ih h
  | enter seen a rest hnew ihInner ihOuter =>
      have hin : T ∈ a.type :: seen := List.mem_cons_of_mem _ h
      obtain ⟨hfresh, hseen⟩ := ihInner hin
      obtain ⟨hfresh', hseen'⟩ := ihOuter (mem_seenAfter_of_mem hin)
      -- the lists attached to the type differ by annotations of type `T`, if at all
      have hlist : g'.fresh (a.type :: seen) (g'.annotations a.type) =
          g'.fresh (a.type :: seen) (g.annotations a.type) := by
        rw [← (fresh_without hin).1, hsame a.type, (fresh_without hin).1]
      have hlist' : g'.seenAfter (a.type :: seen) (g'.annotations a.type) =
          g'.seenAfter (a.type :: seen) (g.annotations a.type) := by
        rw [← (fresh_without hin).2, hsame a.type, (fresh_without hin).2]
      rw [fresh_cons_of_not_mem hnew, fresh_cons_of_not_mem hnew, seenAfter_cons_of_not_mem hnew,
        seenAfter_cons_of_not_mem hnew, hlist, hlist', hfresh, hseen, hfresh', hseen']
      exact ⟨rfl, rfl⟩

/-- The expansions of two lists are the same up to `T` when the lists are. -/
theorem without_expand_eq (hT : ∀ a ∈ g.annotations T, a.type = T)
    (hT' : ∀ a ∈ g'.annotations T, a.type = T) (hlist : without T bs = without T as) :
    without T (g'.expand bs) = without T (g.expand as) := by
  have hmet : ∀ i, i ∈ [T] ↔ i = T ∨ i ∈ ([] : List SymbolId) := by simp
  have hin : T ∈ [T] := List.mem_cons_self
  calc without T (g'.expand bs) = g'.fresh [T] bs := (fresh_of_met hT' hmet).symm
    _ = g'.fresh [T] (without T as) := by rw [← (fresh_without hin).1, hlist]
    _ = g'.fresh [T] as := (fresh_without hin).1
    _ = g.fresh [T] as := (fresh_eq_of_without hsame hin).1
    _ = without T (g.expand as) := fresh_of_met hT hmet

end SameWithout

/-! ## Rulings -/

/-- A known annotation type that stands in no table and carries no annotations. -/
structure Irrelevant (g : Graph) (T : SymbolId) : Prop where
  known : (g.symbol T).isUnknown = false
  bare : g.annotations T = []
  not_strong : (g.symbol T).qualifiedName ∉ Vocabulary.strongNullable
  not_weak : (g.symbol T).qualifiedName ∉ Vocabulary.weakNullable
  not_nonNull : (g.symbol T).qualifiedName ∉ Vocabulary.nonNull
  not_byWhen : (g.symbol T).qualifiedName ≠ Vocabulary.explainedByWhen
  not_default : (g.symbol T).qualifiedName ∉ Vocabulary.scopeDefaults.map (·.1)

namespace Irrelevant
variable {a : Annotation}

theorem isUnknownType (h : g.Irrelevant T) (ha : a.type = T) : g.isUnknownType a = false := by
  rw [Graph.isUnknownType, ha, h.known]

theorem nullability? (h : g.Irrelevant T) (ha : a.type = T) : g.nullability? a = none := by
  have hsense : Vocabulary.sense? (g.typeName a) = none := by
    rw [Vocabulary.sense?, typeName, ha, if_neg h.not_byWhen, if_neg h.not_strong,
      if_neg h.not_weak, if_neg h.not_nonNull]
  rw [Graph.nullability?, hsense]

theorem setsDefault (h : g.Irrelevant T) (ha : a.type = T) (t : Target) :
    g.setsDefault a t = false := by
  have hlookup : Vocabulary.scopeDefaults.lookup (g.typeName a) = none := by
    rw [List.lookup_eq_none_iff]
    intro p hp
    rw [typeName, ha, bne_iff_ne]
    exact fun heq => h.not_default (List.mem_map.mpr ⟨p, hp, heq.symm⟩)
  rw [Graph.setsDefault, hlookup]

theorem rulingAfter_without (h : g.Irrelevant T) (best : Option (Nullability × Annotation)) :
    g.rulingAfter best (without T as) = g.rulingAfter best as := by
  induction as generalizing best with
  | nil => rfl
  | cons a as ih =>
      by_cases ha : a.type = T
      · rw [without_cons_of_eq ha, ih, rulingAfter, h.isUnknownType ha, h.nullability? ha]
        rfl
      · rw [without_cons_of_ne ha, rulingAfter, rulingAfter]
        simp only [ih]

theorem ruling_without (h : g.Irrelevant T) : g.ruling (without T as) = g.ruling as :=
  h.rulingAfter_without none

theorem defaultRuling_without (h : g.Irrelevant T) (t : Target) :
    g.defaultRuling t (without T as) = g.defaultRuling t as := by
  have hany : (without T as).any g.isUnknownType = as.any g.isUnknownType ∧
      (without T as).find? (g.setsDefault · t) = as.find? (g.setsDefault · t) := by
    induction as with
    | nil => exact ⟨rfl, rfl⟩
    | cons a as ih =>
        rw [List.any_cons, List.find?_cons]
        by_cases ha : a.type = T
        · rw [without_cons_of_eq ha, h.isUnknownType ha, h.setsDefault ha]
          exact ih
        · rw [without_cons_of_ne ha, List.any_cons, List.find?_cons, ih.1, ih.2]
          exact ⟨rfl, rfl⟩
  rw [defaultRuling, defaultRuling, hany.1, hany.2]

end Irrelevant

/-! ## Insertion -/

theorem without_insert {a : Annotation} {before after : List Annotation} (ha : a.type = T) :
    without T (before ++ a :: after) = without T (before ++ after) := by
  rw [without_append, without_cons_of_eq ha, without_append]

section Insert
variable {x : SymbolId} (hlist : without T as = without T (g.annotations x))
include hlist

theorem without_annotations_eq (i : SymbolId) :
    without T ((g.withAnnotations x as).annotations i) = without T (g.annotations i) := by
  rw [annotations_withAnnotations]
  split
  · rename_i hx
    rw [hlist, hx.1]
  · rfl

/-- Rulings do not notice annotations of an irrelevant type that come or go. -/
theorem Irrelevant.sameRulings (h : g.Irrelevant T) (i : SymbolId) :
    g.SameRulings (g.withAnnotations x as) i := by
  have hdirect := without_annotations_eq hlist i
  -- `T` carries nothing in the one graph, and at most annotations of its own type in the other
  have hT : ∀ a ∈ g.annotations T, a.type = T := fun a ha => by
    rw [h.bare] at ha
    cases ha
  have hT' : ∀ a ∈ (g.withAnnotations x as).annotations T, a.type = T := by
    intro a ha
    refine Decidable.byContradiction fun hne => ?_
    have hmem : a ∈ without T (g.annotations T) :=
      without_annotations_eq hlist T ▸ mem_without.mpr ⟨ha, hne⟩
    rw [h.bare] at hmem
    cases hmem
  have hexpanded := without_expand_eq (without_annotations_eq hlist) hT hT' hdirect
  exact
    { bare := g.bare_withAnnotations x as i
      direct := by
        rw [ruling_withAnnotations, ← h.ruling_without, hdirect, h.ruling_without]
      expanded := by
        rw [ruling_withAnnotations, ← h.ruling_without, hexpanded, h.ruling_without]
      directDefault := fun t => by
        rw [defaultRuling_withAnnotations, ← h.defaultRuling_without, hdirect,
          h.defaultRuling_without]
      expandedDefault := fun t => by
        rw [defaultRuling_withAnnotations, ← h.defaultRuling_without, hexpanded,
          h.defaultRuling_without] }

end Insert

/-- **Irrelevance.** Inserting an annotation of an irrelevant type, with any arguments and
at any place in the annotations of any symbol, changes no result. -/
theorem resolve_insert {x : SymbolId} {before after : List Annotation} {a : Annotation}
    (ha : g.Irrelevant a.type) (hx : g.annotations x = before ++ after) (s : SymbolId)
    (t : Target) :
    (g.withAnnotations x (before ++ a :: after)).resolve s t = g.resolve s t := by
  have hlist : without a.type (before ++ a :: after) = without a.type (g.annotations x) := by
    rw [hx, without_insert rfl]
  exact resolve_eq_of_sameRulings (g.owners_withAnnotations x _ s) (ha.sameRulings hlist s)
    (fun o _ => ha.sameRulings hlist o) t

/-- A field of type `p.C` with the annotation `p.A`, whose type allows null. -/
def metaNullable : Registry :=
  Registry.run {}
    [ .ensureClass "javax.annotation.CheckForNull", .ensureClass "p.A", .ensureClass "p.Tag",
      .ensureClass "p.C", .member .var "f" (some 5) false, .annotate 3 ⟨1, []⟩,
      .annotate 6 ⟨3, []⟩ ]

/-- A tag at `p.A`, before the annotation that is found through it. -/
theorem resolve_metaNullable_tagged :
    (metaNullable.withAnnotations 3 [⟨4, [⟨"value", .symbol 5⟩]⟩, ⟨1, []⟩]).resolve 6 .field =
      .decided ⟨.strongNullable, .var, ⟨1, []⟩, true⟩ := by
  have htag : metaNullable.Irrelevant 4 := by constructor <;> decide
  have hlist : metaNullable.annotations 3 = [] ++ [⟨1, []⟩] := rfl
  have hsame := resolve_insert (a := ⟨4, [⟨"value", .symbol 5⟩]⟩) htag hlist 6 .field
  exact hsame.trans (by cbv)

end Graph

end Nullness
