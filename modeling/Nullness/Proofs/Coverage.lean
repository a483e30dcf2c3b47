import Mathlib.Data.List.Perm.Subperm
import Nullness.Proofs.Expansion
import Nullness.Proofs.Growth

/-!
# What an expansion covers

Annotation types lead to one another: from a type one gets to the types of the annotations
that are attached to it. Such ways may go round in circles, and some types may be barred from
the start.

- `Graph.Met`: the types that a list of annotations leads to along ways that are not barred.
- `Graph.Covers`: annotations that stand for these types, one for each of them.
- `Graph.follow_covers`: following a list adds exactly such annotations to a trail, and bars
  exactly these types. The expansion of a list is never longer than the graph.
-/

namespace Nullness

namespace Graph

variable {g : Graph} {barred : List SymbolId} {as new : List Annotation} {i : SymbolId}

/-- The types that a list of annotations leads to. No type on the way is barred. -/
inductive Met (g : Graph) (barred : List SymbolId) (as : List Annotation) : SymbolId → Prop
  | listed {a : Annotation} : a ∈ as → a.type ∉ barred → Met g barred as a.type
  | attached {i : SymbolId} {a : Annotation} : Met g barred as i → a ∈ g.annotations i →
      a.type ∉ barred → Met g barred as a.type

/-- The types that are met are those of the annotations that are reached. -/
theorem met_iff : g.Met barred as i ↔ ∃ a, g.Reached barred as a ∧ a.type = i := by
  constructor
  · intro h
    induction h with
    | @listed a ha hnew => exact ⟨a, .listed ha hnew, rfl⟩
    | @attached _ b _ hb hnew ih =>
        obtain ⟨a, ha, rfl⟩ := ih
        exact ⟨b, .attached ha hb hnew, rfl⟩
  · rintro ⟨a, ha, rfl⟩
    induction ha with
    | listed ha hnew => exact .listed ha hnew
    | attached _ hb hnew ih => exact .attached ih hb hnew

/-- Annotations that are in the graph lead nowhere else. -/
theorem Met.lt_size (hg : ∀ i, ∀ a ∈ g.annotations i, a.type < g.size)
    (has : ∀ a ∈ as, a.type < g.size) (h : g.Met barred as i) : i < g.size := by
  cases h with
  | listed ha _ => exact has _ ha
  | attached _ ha _ => exact hg _ _ ha

/-- Annotations that stand for the types that are met: each is in the list or attached to such
a type, every type has one, and none has two. -/
structure Covers (g : Graph) (barred : List SymbolId) (as new : List Annotation) : Prop where
  reached : ∀ a ∈ new, g.Reached barred as a
  complete : ∀ i, g.Met barred as i → ∃ a ∈ new, a.type = i
  distinct : (new.map (·.type)).Nodup

theorem Covers.exists_type_iff (h : g.Covers barred as new) :
    (∃ a ∈ new, a.type = i) ↔ g.Met barred as i := by
  constructor
  · rintro ⟨a, ha, hi⟩
    exact met_iff.mpr ⟨a, h.reached a ha, hi⟩
  · intro hi
    exact h.complete i hi

theorem covers_fresh (g : Graph) (seen : List SymbolId) (as : List Annotation) :
    g.Covers seen as (g.fresh seen as) := by
  constructor
  · intro a ha
    exact reached_of_mem_fresh ha
  · intro i hi
    obtain ⟨a, ha, rfl⟩ := met_iff.mp hi
    exact type_mem_of_reached ha
  · exact nodup_types_fresh

/-- No more annotations cover types than there are symbols to be met. -/
theorem Covers.length_le (h : g.Covers barred as new)
    (hg : ∀ i, ∀ a ∈ g.annotations i, a.type < g.size) (has : ∀ a ∈ as, a.type < g.size) :
    new.length ≤ g.size := by
  have hsub : new.map (·.type) ⊆ List.range g.size := by
    intro i hi
    have hmet : g.Met barred as i := h.exists_type_iff.mp (List.mem_map.mp hi)
    exact List.mem_range.mpr (hmet.lt_size hg has)
  have hlength := (h.distinct.subperm hsub).length_le
  rwa [List.length_map, List.length_range] at hlength

/-- **Coverage.** Following a list, from any trail and in any graph, keeps what was kept, adds
one annotation for each type that the list leads to along types that were not seen before, and
leaves seen what was seen and these types. So an expansion has one annotation for each type
that the list leads to, and no more than there are symbols if all types are among these, as
they are in every graph that can be built. -/
theorem follow_covers (g : Graph) (t : Trail) (as : List Annotation) :
    (∃ new, (g.follow t as).1.kept.toList = t.kept.toList ++ new ∧ g.Covers t.seen as new ∧
      ∀ i, i ∈ (g.follow t as).1.seen ↔ i ∈ t.seen ∨ g.Met t.seen as i) ∧
    g.Covers [] as (g.expand as) ∧
    ((∀ i, ∀ a ∈ g.annotations i, a.type < g.size) → (∀ a ∈ as, a.type < g.size) →
      (g.expand as).length ≤ g.size) := by
  refine ⟨⟨g.fresh t.seen as, ?_, covers_fresh g t.seen as, ?_⟩, covers_fresh g [] as, ?_⟩
  · rw [follow_eq]
    simp
  · intro i
    rw [follow_eq, mem_seenAfter, (covers_fresh g t.seen as).exists_type_iff]
  · intro hg has
    exact (covers_fresh g [] as).length_le hg has

/-- Two annotation types that carry each other, and one that carries itself and the first. -/
def circular : Registry :=
  Registry.run {}
    [ .ensureClass "A", .ensureClass "B", .ensureClass "C", .annotate 0 ⟨1, []⟩,
      .annotate 1 ⟨0, []⟩, .annotate 2 ⟨2, []⟩, .annotate 2 ⟨0, []⟩ ]

theorem built_circular : circular.Built :=
  ⟨circular, .run .empty (by decide), rfl⟩

/-- The walk from the third type comes round both circles and ends, and it does not miss the
second type, which only the first one leads to. -/
theorem covers_circular :
    (∀ i, ∀ a ∈ circular.annotations i, a.type < circular.size) ∧
      (∀ a ∈ [(⟨2, []⟩ : Annotation)], a.type < circular.size) ∧
      (∃ a ∈ circular.expand [⟨2, []⟩], a.type = 1) ∧
      (circular.expand [⟨2, []⟩]).length ≤ circular.size := by
  have hgraph : ∀ i, ∀ a ∈ circular.annotations i, a.type < circular.size :=
    fun i a ha => (built_circular.sound.below i a ha).type_lt
  have hlist : ∀ a ∈ [(⟨2, []⟩ : Annotation)], a.type < circular.size := by decide
  obtain ⟨-, hcovers, hlength⟩ := follow_covers circular.toGraph {} [⟨2, []⟩]
  have hthird : circular.annotations 2 = [⟨2, []⟩, ⟨0, []⟩] := rfl
  have hfirst : circular.annotations 0 = [⟨1, []⟩] := rfl
  have hmet₂ : circular.Met [] [⟨2, []⟩] 2 := .listed List.mem_cons_self nofun
  have hmet₀ : circular.Met [] [⟨2, []⟩] 0 := by
    refine .attached (a := ⟨0, []⟩) hmet₂ ?_ nofun
    rw [hthird]
    exact List.mem_cons_of_mem _ List.mem_cons_self
  have hmet₁ : circular.Met [] [⟨2, []⟩] 1 := by
    refine .attached (a := ⟨1, []⟩) hmet₀ ?_ nofun
    rw [hfirst]
    exact List.mem_cons_self
  exact ⟨hgraph, hlist, hcovers.complete 1 hmet₁, hlength hgraph hlist⟩

end Graph

end Nullness
