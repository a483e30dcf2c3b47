import Mathlib
import Nullness.Proofs.Expansion
import Nullness.Proofs.Resolution

/-!
# What a result depends on

The result at a symbol is read off the symbol, its owners up to the first package, and
the annotation types that are reached from these. Nothing else is looked at: no other
package, nothing that owns the package, no symbol that is added later, whatever its name.

- `Graph.Dependency`: the symbols that a result depends on.
- `Graph.resolve_eq_of_dependency`: two graphs that attach the same annotations to these.
- `Registry.resolve_run`: edits that annotate none of these leave the result alone.
-/

namespace Nullness

namespace Graph

variable {g g' : Graph} {s : SymbolId}

/-- The symbols that results at `s` depend on. -/
inductive Dependency (g : Graph) (s : SymbolId) : SymbolId → Prop
  | self : Dependency g s s
  | owner {o : SymbolId} {os : List SymbolId} : g.OwnerChain s os → o ∈ os → Dependency g s o
  | type {i : SymbolId} {a : Annotation} : Dependency g s i → a ∈ g.annotations i →
      Dependency g s a.type

theorem Dependency.lt_size (hg : g.Sound) (hs : s < g.size) {i : SymbolId}
    (h : g.Dependency s i) : i < g.size := by
  induction h with
  | self => exact hs
  | owner hos ho => exact Nat.lt_trans (hos.lt hg ho) hs
  | type _ ha _ => exact (hg.below _ _ ha).type_lt

/-- Only what is in a closed set can be depended on. -/
theorem Dependency.of_closed (hg : g.Sound) {D : SymbolId → Prop} (hself : D s)
    (howners : ∀ o ∈ g.owners s, D o) (hclosed : ∀ i, D i → ∀ a ∈ g.annotations i, D a.type)
    {i : SymbolId} (h : g.Dependency s i) : D i := by
  induction h with
  | self => exact hself
  | owner hos ho => exact howners _ (hg.ownerChain_iff.mp hos ▸ ho)
  | type _ ha ih => exact hclosed _ ih _ ha

section Agree
variable (hg : g.Sound) (hs : s < g.size)
  (hbare : ∀ i, i < g.size → (g'.symbol i).bare = (g.symbol i).bare)
include hg hbare

/-- An annotation of the graph reads alike in a graph that holds the same symbols. -/
theorem alike_of_mem_annotations {i : SymbolId} {a : Annotation} (ha : a ∈ g.annotations i) :
    g.Alike g' a :=
  alike_of_below (hg.below i a ha) hbare

theorem alike_of_mem_expand {i : SymbolId} {a : Annotation}
    (ha : a ∈ g.expand (g.annotations i)) : g.Alike g' a := by
  obtain ⟨j, hj⟩ := (reached_of_mem_fresh ha).attached_to
  exact alike_of_mem_annotations hg hbare hj

include hs
variable (hsame : ∀ i, g.Dependency s i → g'.annotations i = g.annotations i)
include hsame

theorem Dependency.sameRulings {i : SymbolId} (hi : g.Dependency s i) :
    g.SameRulings g' i := by
  have hdirect : g'.annotations i = g.annotations i := hsame i hi
  have hexpanded : g'.expand (g.annotations i) = g.expand (g.annotations i) := by
    -- the walk stays among the dependencies, where both graphs attach the same
    have hclosed : ∀ j, g.Dependency s j → ∀ a ∈ g.annotations j, g.Dependency s a.type :=
      fun _ hj _ ha => .type hj ha
    rw [expand_eq_fresh, expand_eq_fresh]
    exact (fresh_congr hsame hclosed (hclosed i hi)).1
  have halike : ∀ a ∈ g.annotations i, g.Alike g' a :=
    fun _ => alike_of_mem_annotations hg hbare
  have halike' : ∀ a ∈ g.expand (g.annotations i), g.Alike g' a :=
    fun _ => alike_of_mem_expand hg hbare
  refine ⟨hbare i (hi.lt_size hg hs), ?_, ?_, fun t => ?_, fun t => ?_⟩
  · rw [hdirect, ruling_congr halike]
  · rw [hdirect, hexpanded, ruling_congr halike']
  · rw [hdirect, defaultRuling_congr halike]
  · rw [hdirect, hexpanded, defaultRuling_congr halike']

/-- A result is the same in a graph that holds the same symbols, and attaches the same
annotations to those that the result depends on. -/
theorem resolve_eq_of_dependency (t : Target) : g'.resolve s t = g.resolve s t := by
  have howners : g'.owners s = g.owners s :=
    owners_congr fun i hi => hbare i (Nat.lt_of_le_of_lt hi hs)
  refine resolve_eq_of_sameRulings howners ?_ (fun o ho => ?_) t
  · exact Dependency.sameRulings hg hs hbare hsame .self
  · exact Dependency.sameRulings hg hs hbare hsame (.owner (hg.ownerChain_owners s) ho)

end Agree

end Graph

namespace Registry

/-- **Dependence.** A result does not change under any edits that annotate none of the
symbols it depends on. -/
theorem resolve_run {r : Registry} (hr : r.Reachable) {s : SymbolId} (hs : s < r.size)
    {es : List Edit} (hes : r.LegalRun es)
    (hdep : ∀ i a, Edit.annotate i a ∈ es → ¬ r.Dependency s i) (t : Target) :
    (r.run es).resolve s t = r.resolve s t := by
  have hsound : r.Sound := hr.sound
  refine Graph.resolve_eq_of_dependency hsound hs (fun i hi => bare_run hes hi)
    (fun i hi => ?_) t
  exact annotations_run hes (hi.lt_size hsound hs) fun a ha => hdep i a ha hi

/-- A field `p.C.f` with an annotation whose type allows null. -/
def nullableField : Registry :=
  run {}
    [ .package "p", .member .cls "C" (some 0) false, .member .var "f" (some 1) false,
      .ensureClass "p.A", .ensureClass "javax.annotation.CheckForNull",
      .annotate 3 ⟨5, []⟩, .annotate 2 ⟨3, []⟩ ]

/-- A second class `p.C` with an annotation, and an annotation of unknown type at the
package of `CheckForNull`. -/
def editsElsewhere : List Edit :=
  [ .symbol .cls "C" (some 0) false false, .annotate 6 ⟨5, []⟩, .setSite 2 ⟨"C.java", 7⟩,
    .unknown "q.B", .annotate 4 ⟨7, []⟩ ]

theorem resolve_nullableField_run :
    (nullableField.run editsElsewhere).resolve 2 .field =
      .decided ⟨.strongNullable, .var, ⟨5, []⟩, true⟩ := by
  have hr : nullableField.Reachable := .run .empty (by decide)
  -- the field, its class and package, `p.A` and `CheckForNull`
  have howners : ∀ o ∈ nullableField.owners 2, o ∈ [0, 1, 2, 3, 5] := by
    rw [show nullableField.owners 2 = [1, 0] by cbv]
    decide
  have hclosed : ∀ j ∈ [0, 1, 2, 3, 5], ∀ a ∈ nullableField.annotations j,
      a.type ∈ [0, 1, 2, 3, 5] := by decide
  have hdep : ∀ i a, Edit.annotate i a ∈ editsElsewhere → ¬ nullableField.Dependency 2 i := by
    intro i a ha hi
    have hmem : i ∈ [0, 1, 2, 3, 5] := hi.of_closed hr.sound (by decide) howners hclosed
    have hid : i = 6 ∨ i = 4 := by
      simp only [editsElsewhere, List.mem_cons, List.not_mem_nil, reduceCtorEq, false_or,
        or_false, Edit.annotate.injEq] at ha
      exact ha.imp And.left And.left
    rcases hid with rfl | rfl
    · exact absurd hmem (by decide)
    · exact absurd hmem (by decide)
  exact (resolve_run hr (by decide) (by decide) hdep .field).trans (by cbv)

end Registry

end Nullness
