import Nullness.Proofs.Description

/-!
# Annotations that share their types

Whether two annotations have one and the same type matters, since a type is expanded only
once. A type that its name leads to is shared by all annotations that give this name. Any
other type was added for one annotation, and no other one has it.

- `Graph.Listed`: the name of a symbol leads to it.
- `Graph.UsedOnce`: types that are not listed are not shared.
- `Registry.usedOnce_describeAll`: so it is in every graph that is loaded.
-/

namespace Nullness

open Document

/-- The name of the symbol leads to it, or it was declared unknown under that name. -/
def Graph.Listed (g : Graph) (i : SymbolId) : Prop :=
  g.find? (g.symbol i).qualifiedName = some i ∨
    (g.symbol i).isMissingAs (g.symbol i).qualifiedName = true

/-- A type that is not listed belongs to a single annotation. -/
def Graph.UsedOnce (g : Graph) : Prop :=
  ∀ (i j k l : Nat) (a b : Annotation), (g.annotations i)[k]? = some a →
    (g.annotations j)[l]? = some b → a.type = b.type → g.Listed a.type ∨ (i = j ∧ k = l)

namespace Registry

variable {r r' : Registry} {i : SymbolId} {q : String} {es : List SymbolEntry} {done : Declared}

theorem listed_mono (h : r.Exact) (h' : r'.Exact) (hext : r.Extends r'.toGraph) (hi : i < r.size)
    (hl : r.Listed i) : r'.Listed i := by
  have hbare := hext.bare i hi
  rw [Graph.Listed, Symbol.qualifiedName_of_bare hbare, Symbol.isMissingAs_of_bare hbare]
  exact hl.imp (h.find?_mono h' hext) id

/-- A type was added just now, or its name led to it before. -/
theorem Exact.listed_typeOf (h : r.Exact) (q : String) (isUnresolved : Bool) :
    ((r.typeOf q isUnresolved).2 < r.size ∧ r.Listed (r.typeOf q isUnresolved).2) ∨
      r.size ≤ (r.typeOf q isUnresolved).2 := by
  have hfound : ∀ {j}, r.findKind? q .cls = some j → j < r.size ∧ r.Listed j := fun {j} hj => by
    have hknows := h.knows_of_findKind? hj
    refine ⟨hknows.lt, Or.inl ?_⟩
    rw [hknows.name]
    exact (Registry.findKind?_eq_some_iff.mp hj).1
  cases isUnresolved with
  | true => exact Or.inr (Nat.le_refl _)
  | false =>
    rcases typeOf_cases r q with ⟨j, hj, heq⟩ | ⟨-, j, hj, -, heq⟩ | ⟨hnone, -, heq⟩
    · rw [heq]
      exact Or.inl (hfound hj)
    · obtain ⟨hmissing, hlt, -⟩ := h.missing_eq_some_iff.mp hj
      rw [heq]
      refine Or.inl ⟨hlt, Or.inr ?_⟩
      rw [(Symbol.isMissingAs_iff.mp hmissing).2.2]
      exact hmissing
    · rw [heq]
      rcases h.ensureClass_cases q with ⟨j, hj, -⟩ | ⟨-, s, e, hopened, -, -, -, -, -, -, heq'⟩
      · rw [hnone] at hj
        cases hj
      · rw [heq', push_snd]
        rcases hopened with rfl | ⟨outer, name, -, -, rfl⟩
        · exact Or.inr (Nat.le_refl _)
        · exact Or.inr (delivers_addPackage r outer).1.size_le

theorem type_eq_of_read {a : AnnotationEntry} {b : Annotation}
    (h : r.annotation a = .ok (r', b)) : b.type = (r.typeOf a.type a.isUnresolved).2 := by
  obtain ⟨name, isUnresolved, as⟩ := a
  rw [Registry.annotation] at h
  dsimp only at h
  split at h
  · cases h
  · cases h
    rfl

/-- After one annotation was attached, an annotation is an earlier one or the last. -/
theorem getElem?_annotate {id : SymbolId} {b x : Annotation} {k : Nat} (hid : id < r.size)
    (h : ((r.annotate id b).annotations i)[k]? = some x) :
    (r.annotations i)[k]? = some x ∨
      (x = b ∧ i = id ∧ k = (r.annotations id).length) := by
  by_cases hi : i = id
  · subst hi
    rw [annotations_annotate_self hid, List.getElem?_append] at h
    split at h
    · exact Or.inl h
    · next hk =>
      right
      obtain ⟨hlt, hx⟩ := List.getElem?_eq_some_iff.mp h
      rw [List.length_singleton] at hlt
      refine ⟨?_, rfl, by omega⟩
      rw [← hx, List.getElem_singleton]
  · rw [annotations_annotate_of_ne (Ne.symm hi)] at h
    exact Or.inl h

/-- The type of the last annotation is listed, or it is newer than those of all others. -/
theorem usedOnce_annotate (hr : r.Reachable) (hu : r.UsedOnce) {a : AnnotationEntry}
    {b : Annotation} (hread : r.annotation a = .ok (r', b)) {id : SymbolId} (hid : id < r'.size) :
    (r'.annotate id b).UsedOnce := by
  obtain ⟨hr', hgrown, -⟩ := hr.annotation hread
  have hext : r.Extends (r'.annotate id b).toGraph :=
    hgrown.extends.trans (extends_annotate r' id b)
  have hkept : ∀ {t}, t < r.size → r.Listed t → (r'.annotate id b).Listed t := fun hlt hl =>
    listed_mono hr.exact (hr'.exact.annotate id b) hext hlt hl
  have hold : ∀ {i k : Nat} {x : Annotation}, (r'.annotations i)[k]? = some x →
      (r.annotations i)[k]? = some x ∧ x.type < r.size := fun {i _ x} hx => by
    rw [hgrown.annotations] at hx
    exact ⟨hx, (hr.sound.below i x (List.mem_of_getElem? hx)).type_lt⟩
  have hnew : b.type < r.size → (r'.annotate id b).Listed b.type := fun hlt => by
    rw [type_eq_of_read hread] at hlt ⊢
    rcases hr.exact.listed_typeOf a.type a.isUnresolved with ⟨-, hl⟩ | hge
    · exact hkept hlt hl
    · exact absurd hlt (Nat.not_lt.mpr hge)
  intro i j k l x y hx hy hxy
  rcases getElem?_annotate hid hx with hx' | ⟨hxb, hik, hkl⟩ <;>
    rcases getElem?_annotate hid hy with hy' | ⟨hyb, hjl, hlk⟩
  · exact (hu i j k l x y (hold hx').1 (hold hy').1 hxy).imp_left (hkept (hold hx').2)
  · -- an older annotation has the type, so its name led to it when the last one was read
    have hlt := (hold hx').2
    rw [hxy, hyb] at hlt ⊢
    exact Or.inl (hnew hlt)
  · have hlt := (hold hy').2
    rw [← hxy, hxb] at hlt
    rw [hxb]
    exact Or.inl (hnew hlt)
  · exact Or.inr ⟨hik.trans hjl.symm, hkl.trans hlk.symm⟩

theorem usedOnce_setSite (hr : r.Exact) (hsound : r.Sound) (hu : r.UsedOnce) (id : SymbolId)
    (site : Site) : (r.setSite id site).UsedOnce := by
  intro i j k l a b ha hb hab
  rw [annotations_setSite] at ha hb
  have hlt := (hsound.below i a (List.mem_of_getElem? ha)).type_lt
  exact (hu i j k l a b ha hb hab).imp_left
    (listed_mono hr (hr.setSite id site) (extends_setSite r id site) hlt)

/-- Describing entries keeps types apart that are not listed. -/
theorem usedOnce_describeAll (hr : r.Reachable) (hnone : ∀ i, r.annotations i = [])
    (hdone : ∀ e ∈ es, ∀ id, done.lookup e.id = some id → id < r.size)
    (h : r.describeAll done es = .ok r') : r'.UsedOnce := by
  have hu : r.UsedOnce := fun i j k l a b ha => by
    rw [hnone] at ha
    cases ha
  refine (describeAll_induct
    (P := fun s => s.Reachable ∧ r.Extends s.toGraph ∧ s.UsedOnce) ?_ ?_ ⟨hr, .refl _, hu⟩ h).2.2
  · rintro s e id site he hid - ⟨hs, hext, hu⟩
    have hlt : id < s.size := Nat.lt_of_lt_of_le (hdone e he id hid) hext.size_le
    exact ⟨hs.apply (e := .setSite id site) hlt, hext.trans (extends_setSite s id site),
      usedOnce_setSite hs.exact hs.sound hu id site⟩
  · rintro s s' e id a b he hid - ⟨hs, hext, hu⟩ hread
    obtain ⟨hs', hgrown, hbelow⟩ := hs.annotation hread
    have hext' := hext.trans hgrown.extends
    have hlt : id < s'.size := Nat.lt_of_lt_of_le (hdone e he id hid) hext'.size_le
    exact ⟨hs'.apply (e := .annotate id b) ⟨hlt, hbelow⟩, hext'.trans (extends_annotate s' id b),
      usedOnce_annotate hs hu hread hlt⟩

end Registry

end Nullness
