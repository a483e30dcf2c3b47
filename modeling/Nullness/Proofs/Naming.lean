import Nullness.Proofs.Loaded

/-!
# Qualified names of entries

An entry is referred to by its qualified name, which is made up of the names of its owners
and its own. Where the qualified names of entries differ, a name leads to the one entry that
has it, if there is one.

- `Document.Named`: the qualified name of an entry.
- `Document.DistinctNames`: no two entries have one name.
- `Graph.Loaded.find?_of_named`, `Graph.Loaded.missing_of_named`: what names of entries lead to
  when all entries are declared.
-/

namespace Nullness

namespace Document

variable {es : List SymbolEntry} {e o : SymbolEntry} {q q' : String}

/-- The qualified name of an entry: its own name, behind that of its owner. -/
inductive Named (es : List SymbolEntry) : SymbolEntry → String → Prop
  | root {e : SymbolEntry} (h : e.owner = none) : Named es e e.name
  | owned {e o : SymbolEntry} {q : String} (h : OwnedBy es e o) (ho : Named es o q) :
      Named es e (q ++ "." ++ e.name)

/-- No two entries have one qualified name. -/
def DistinctNames (es : List SymbolEntry) : Prop :=
  ∀ e ∈ es, ∀ o ∈ es, ∀ q, Named es e q → Named es o q → e = o

theorem Rooted.exists_named (h : Rooted es e) : ∃ q, Named es e q := by
  induction h with
  | root hn => exact ⟨_, .root hn⟩
  | owned ho _ ih =>
    obtain ⟨q, hq⟩ := ih
    exact ⟨_, .owned ho hq⟩

theorem Named.unique (hd : (es.map (·.id)).Nodup) (h : Named es e q) (h' : Named es e q') :
    q = q' := by
  induction h generalizing q' with
  | root hn =>
    cases h' with
    | root _ => rfl
    | owned ho _ => exact absurd ho.2 (by simp [hn])
  | owned ho _ ih =>
    cases h' with
    | root hn => exact absurd ho.2 (by simp [hn])
    | owned ho' hq' =>
      obtain rfl := ho.unique hd ho'
      rw [ih hq']

theorem mem_of_forall₂ (hd : (es.map (·.id)).Nodup) {qs : List String}
    (h : List.Forall₂ (Named es) es qs) (he : e ∈ es) (hq : Named es e q) : q ∈ qs := by
  obtain ⟨i, hi, rfl⟩ := List.getElem_of_mem he
  have hi' : i < qs.length := h.length_eq ▸ hi
  rw [← (h.get hi hi').unique hd hq]
  exact List.getElem_mem hi'

theorem distinctNames_of_forall₂ (hd : (es.map (·.id)).Nodup) {qs : List String}
    (h : List.Forall₂ (Named es) es qs) (hqs : qs.Nodup) : DistinctNames es := by
  intro e he o ho q hq hq'
  obtain ⟨i, hi, rfl⟩ := List.getElem_of_mem he
  obtain ⟨j, hj, rfl⟩ := List.getElem_of_mem ho
  have hlen := h.length_eq
  have hi' := (h.get hi (hlen ▸ hi)).unique hd hq
  have hj' := (h.get hj (hlen ▸ hj)).unique hd hq'
  have hij : i = j := (List.Nodup.getElem_inj_iff hqs).mp (hi'.trans hj'.symm)
  subst hij
  rfl

end Document

open Document

namespace Graph

variable {es : List SymbolEntry} {g : Graph} {home : String → SymbolId} {e o : SymbolEntry}
variable {q : String}

/-- The symbol of an entry has the qualified name of the entry. -/
theorem qualifiedName_of_named (hd : ∀ e ∈ es, g.Declares home e) (he : e ∈ es)
    (hq : Named es e q) : (g.symbol (home e.id)).qualifiedName = q := by
  induction hq with
  | root hn =>
    rw [(hd _ he).qualifiedName, hn]
    rfl
  | owned ho _ ih =>
    rw [(hd _ he).qualifiedName, ho.2, Option.elim_some, ih ho.1]

namespace Loaded

variable {placed : List SymbolEntry} {base r : Registry} {done : Registry.Declared}

theorem declares_base (h : Loaded es g home placed base r done) :
    ∀ e ∈ es, base.Declares home e :=
  fun e he => h.placed.declares e (h.mem_placed he)

theorem exists_entry (h : Loaded es g home placed base r done) {i : SymbolId}
    (hi : i < base.size) : ∃ e ∈ es, home e.id = i := by
  obtain ⟨e, he, hid⟩ := h.placed.numbered.exists_home hi
  exact ⟨e, h.mem_of_placed he, hid⟩

section Distinct
variable (h : Loaded es g home placed base r done) (ha : Acceptable es) (hn : DistinctNames es)
include h ha hn

/-- No other entry has a symbol of this name. -/
theorem eq_of_qualifiedName (he : e ∈ es) (ho : o ∈ es) (hq : Named es e q)
    (hname : (base.symbol (home o.id)).qualifiedName = q) : o = e := by
  obtain ⟨q', hq'⟩ := (ha.rooted o ho).exists_named
  rw [qualifiedName_of_named h.declares_base ho hq'] at hname
  subst hname
  exact hn o ho e he _ hq' hq

theorem eq_of_home_eq (he : e ∈ es) (ho : o ∈ es) (hhome : home o.id = home e.id) : o = e := by
  obtain ⟨q, hq⟩ := (ha.rooted e he).exists_named
  refine h.eq_of_qualifiedName ha hn he ho hq ?_
  rw [hhome]
  exact qualifiedName_of_named h.declares_base he hq

/-- The one symbol of an entry's name is found by any search that it passes. -/
theorem first?_of_named (he : e ∈ es) (hq : Named es e q) {p : Symbol → Bool}
    (hp : ∀ s, p s = true → s.qualifiedName = q) (hself : p (base.symbol (home e.id)) = true) :
    base.first? p = some (home e.id) := by
  have hlt := (h.declares_base e he).lt
  refine Graph.first?_eq_some_iff.mpr ⟨hself, hlt, fun j hj => ?_⟩
  -- an earlier symbol that passes would belong to another entry of this name
  obtain ⟨o, ho, hid⟩ := h.exists_entry (Nat.lt_trans hj hlt)
  rw [Bool.eq_false_iff]
  intro hpj
  have hoe := h.eq_of_qualifiedName ha hn he ho hq (hp _ (hid ▸ hpj))
  rw [hoe] at hid
  exact absurd hid (Nat.ne_of_gt hj)

theorem find?_of_named (he : e ∈ es) (hq : Named es e q) (hu : e.isUnknown = false) :
    base.find? q = some (home e.id) := by
  rw [h.placed.reachable.exact.known]
  refine h.first?_of_named ha hn he hq (fun s hs => (Symbol.isKnownAs_iff.mp hs).2) ?_
  have hd := h.declares_base e he
  exact Symbol.isKnownAs_iff.mpr
    ⟨hd.isUnknown.trans hu, qualifiedName_of_named h.declares_base he hq⟩

theorem missing_of_named (he : e ∈ es) (hq : Named es e q) (hu : e.isUnknown = true) :
    base.unknownNames.find? q = some (home e.id) := by
  rw [h.placed.reachable.exact.missing]
  refine h.first?_of_named ha hn he hq (fun s hs => (Symbol.isMissingAs_iff.mp hs).2.2) ?_
  have hd := h.declares_base e he
  exact Symbol.isMissingAs_iff.mpr
    ⟨hd.isUnknown.trans hu, hd.isSynthetic, qualifiedName_of_named h.declares_base he hq⟩

/-- Each entry has a symbol of its own. -/
theorem filter_home_eq (he : e ∈ es) : es.filter (home ·.id = home e.id) = [e] := by
  have hnodup : es.Nodup := h.distinct.of_map _
  obtain ⟨before, after, hsplit⟩ := List.append_of_mem he
  have hnone : ∀ os : List SymbolEntry, os ⊆ es → e ∉ os →
      os.filter (home ·.id = home e.id) = [] := by
    intro os hos hnot
    rw [List.filter_eq_nil_iff]
    intro o ho hid
    exact hnot (h.eq_of_home_eq ha hn he (hos ho) (by simpa using hid) ▸ ho)
  rw [hsplit] at hnodup
  obtain ⟨-, hcons, hdisjoint⟩ := List.nodup_append.mp hnodup
  have hbefore : before ⊆ es := hsplit ▸ List.subset_append_left _ _
  have hafter : after ⊆ es := fun o ho =>
    hsplit ▸ List.mem_append_right _ (List.mem_cons_of_mem _ ho)
  rw [hsplit, List.filter_append, List.filter_cons_of_pos (by simp),
    hnone before hbefore fun hmem => hdisjoint _ hmem _ List.mem_cons_self rfl,
    hnone after hafter (List.nodup_cons.mp hcons).1, List.nil_append]

end Distinct

end Loaded

end Graph

end Nullness
