import Nullness.Proofs.Ownership

/-!
# Entries behind their owners

The order of declaration, told without positions: the entries are taken as they stand in
the document, and each is put behind those of its owners that were not taken before,
outermost first.

- `Document.Lineage`: the owners of an entry, outermost first, and the entry itself.
- `Document.Arranged`: the order of declaration.
- `Document.arranged_of_order`: `order` finds it.
- `Document.Arranged.founded`: in this order, an entry has its owner before it.
-/

namespace Nullness

namespace Document

variable {es : List SymbolEntry}

/-! ## Lineages -/

/-- The owners of an entry, outermost first, and the entry itself. -/
inductive Lineage (es : List SymbolEntry) : SymbolEntry → List SymbolEntry → Prop
  | root {e : SymbolEntry} (h : e.owner = none) : Lineage es e [e]
  | owned {e o : SymbolEntry} {line : List SymbolEntry} (h : OwnedBy es e o)
      (ho : Lineage es o line) : Lineage es e (line ++ [e])

namespace Lineage

variable {e : SymbolEntry} {line : List SymbolEntry}

theorem mem_self (h : Lineage es e line) : e ∈ line := by
  cases h with
  | root _ => exact List.mem_singleton_self e
  | owned _ _ => exact List.mem_append_right _ (List.mem_singleton_self e)

theorem subset (h : Lineage es e line) (he : e ∈ es) : line ⊆ es := by
  induction h with
  | root _ => exact List.cons_subset.2 ⟨he, List.nil_subset _⟩
  | owned ho _ ih =>
    exact List.append_subset.2 ⟨ih ho.1, List.cons_subset.2 ⟨he, List.nil_subset _⟩⟩

theorem unique (hd : (es.map (·.id)).Nodup) (h : Lineage es e line) {line' : List SymbolEntry}
    (h' : Lineage es e line') : line = line' := by
  induction h generalizing line' with
  | root hn =>
    cases h' with
    | root _ => rfl
    | owned ho _ => exact absurd ho.2 (by simp [hn])
  | owned ho _ ih =>
    cases h' with
    | root hn => exact absurd ho.2 (by simp [hn])
    | owned ho' hline' =>
      obtain rfl := ho.unique hd ho'
      rw [ih hline']

/-- The owners of an owner come first in a lineage. -/
theorem exists_of_mem (h : Lineage es e line) {o : SymbolEntry} (ho : o ∈ line) :
    ∃ front, Lineage es o front ∧ front <+: line := by
  induction h with
  | @root e hn =>
    obtain rfl := List.mem_singleton.1 ho
    exact ⟨[o], .root hn, List.prefix_refl _⟩
  | @owned e p line hp hline ih =>
    obtain hmem | hmem := List.mem_append.1 ho
    · obtain ⟨front, hfront, htake⟩ := ih hmem
      exact ⟨front, hfront, htake.trans (List.prefix_append _ _)⟩
    · obtain rfl := List.mem_singleton.1 hmem
      exact ⟨line ++ [o], .owned hp hline, List.prefix_refl _⟩

/-- No entry comes twice in a lineage: it would own itself. -/
theorem nodup (hd : (es.map (·.id)).Nodup) (h : Lineage es e line) (he : e ∈ es) :
    (line.map (·.id)).Nodup := by
  induction h with
  | root _ => simp
  | @owned e o line ho hline ih =>
    rw [List.map_append, List.nodup_append]
    refine ⟨ih ho.1, by simp, ?_⟩
    rintro _ hp _ hq rfl
    obtain ⟨p, hp, hid⟩ := List.mem_map.1 hp
    have hpe : p = e :=
      List.inj_on_of_nodup_map hd (hline.subset ho.1 hp) he (by simpa [hid] using hq)
    subst hpe
    obtain ⟨front, hfront, htake⟩ := hline.exists_of_mem hp
    have hlong := hfront.unique hd (.owned ho hline)
    have hle := htake.length_le
    rw [hlong, List.length_append, List.length_singleton] at hle
    omega

end Lineage

/-! ## The order of declaration -/

/-- Those entries of a lineage that are not among the entries placed before. -/
def missing (placed line : List SymbolEntry) : List SymbolEntry :=
  line.filter fun o => o.id ∉ placed.map (·.id)

/-- The entries of a document, taken in the order in which they stand, each behind those
of its owners that were not placed before. -/
inductive Arranged (es : List SymbolEntry) : List SymbolEntry → List SymbolEntry → Prop
  | nil : Arranged es [] []
  | snoc {before placed line : List SymbolEntry} {e : SymbolEntry} :
      Arranged es before placed → Lineage es e line →
        Arranged es (before ++ [e]) (placed ++ missing placed line)

section Missing
variable {placed line : List SymbolEntry} {e : SymbolEntry}

theorem mem_missing : e ∈ missing placed line ↔ e ∈ line ∧ e.id ∉ placed.map (·.id) := by
  simp [missing]

theorem missing_singleton_of_mem (h : e.id ∈ placed.map (·.id)) : missing placed [e] = [] :=
  List.filter_singleton.trans (by rw [decide_eq_false (not_not_intro h)]; rfl)

theorem missing_singleton_of_not_mem (h : e.id ∉ placed.map (·.id)) : missing placed [e] = [e] :=
  List.filter_singleton.trans (by rw [decide_eq_true h]; rfl)

theorem missing_append (placed line line' : List SymbolEntry) :
    missing placed (line ++ line') = missing placed line ++ missing placed line' :=
  List.filter_append ..

theorem missing_eq_nil_of_subset (h : line ⊆ placed) : missing placed line = [] := by
  rw [List.eq_nil_iff_forall_not_mem]
  intro o ho
  obtain ⟨ho, hnew⟩ := mem_missing.1 ho
  exact hnew (List.mem_map_of_mem (h ho))

/-- An entry of a lineage is placed before or is missing. -/
theorem mem_append_missing (hd : (es.map (·.id)).Nodup) (hplaced : placed ⊆ es)
    (hline : line ⊆ es) (he : e ∈ line) : e ∈ placed ++ missing placed line := by
  rw [List.mem_append]
  by_cases hid : e.id ∈ placed.map (·.id)
  · obtain ⟨p, hp, hpe⟩ := List.mem_map.1 hid
    have hsame : p = e := List.inj_on_of_nodup_map hd (hplaced hp) (hline he) hpe
    exact .inl (hsame ▸ hp)
  · exact .inr (mem_missing.2 ⟨he, hid⟩)

end Missing

namespace Arranged

variable {before placed : List SymbolEntry}

theorem subset (h : Arranged es before placed) (hes : before ⊆ es) : placed ⊆ es := by
  induction h with
  | nil => exact hes
  | @snoc before placed line e _ hline ih =>
    obtain ⟨hbefore, he⟩ := List.append_subset.1 hes
    refine List.append_subset.2 ⟨ih hbefore, fun o ho => ?_⟩
    exact hline.subset (he (List.mem_singleton_self e)) (mem_missing.1 ho).1

/-- Whatever is taken is placed, and so are its owners. -/
theorem lineage_subset (hd : (es.map (·.id)).Nodup) (h : Arranged es before placed)
    (hes : before ⊆ es) {e : SymbolEntry} (he : e ∈ before ∨ e ∈ placed) :
    ∃ line, Lineage es e line ∧ line ⊆ placed := by
  induction h with
  | nil => simp at he
  | @snoc before placed line e' hplaced hline ih =>
    obtain ⟨hbefore, he'⟩ := List.append_subset.1 hes
    have he' := he' (List.mem_singleton_self e')
    have hall : line ⊆ placed ++ missing placed line := fun o ho =>
      mem_append_missing hd (hplaced.subset hbefore) (hline.subset he') ho
    have hold (h : e ∈ before ∨ e ∈ placed) :
        ∃ line', Lineage es e line' ∧ line' ⊆ placed ++ missing placed line := by
      obtain ⟨line', hline', hsub⟩ := ih hbefore h
      exact ⟨line', hline', List.Subset.trans hsub (List.subset_append_left _ _)⟩
    have hnew (h : e ∈ line) :
        ∃ line', Lineage es e line' ∧ line' ⊆ placed ++ missing placed line := by
      obtain ⟨front, hfront, htake⟩ := hline.exists_of_mem h
      exact ⟨front, hfront, List.Subset.trans htake.subset hall⟩
    rw [List.mem_append, List.mem_append, List.mem_singleton] at he
    rcases he with (he | rfl) | (he | he)
    · exact hold (.inl he)
    · exact hnew hline.mem_self
    · exact hold (.inr he)
    · exact hnew (mem_missing.1 he).1

theorem mem_placed (hd : (es.map (·.id)).Nodup) (h : Arranged es before placed)
    (hes : before ⊆ es) {e : SymbolEntry} (he : e ∈ before) : e ∈ placed := by
  obtain ⟨line, hline, hsub⟩ := h.lineage_subset hd hes (.inl he)
  exact hsub hline.mem_self

/-- No entry is placed twice. -/
theorem nodup (hd : (es.map (·.id)).Nodup) (h : Arranged es before placed) (hes : before ⊆ es) :
    (placed.map (·.id)).Nodup := by
  induction h with
  | nil => exact List.nodup_nil
  | @snoc before placed line e _ hline ih =>
    obtain ⟨hbefore, he⟩ := List.append_subset.1 hes
    rw [List.map_append, List.nodup_append]
    refine ⟨ih hbefore, ?_, ?_⟩
    · have hnodup := hline.nodup hd (he (List.mem_singleton_self e))
      exact hnodup.sublist (List.filter_sublist.map _)
    · rintro w hw _ hw' rfl
      obtain ⟨o, ho, rfl⟩ := List.mem_map.1 hw'
      exact (mem_missing.1 ho).2 hw

end Arranged

/-! ## Owners first -/

/-- Every entry of a row has its owner before it. -/
inductive Founded (es : List SymbolEntry) : List SymbolEntry → Prop
  | nil : Founded es []
  | snoc {placed : List SymbolEntry} {e : SymbolEntry} : Founded es placed →
      (∀ w, e.owner = some w → ∃ o ∈ placed, o.id = w) → Founded es (placed ++ [e])

theorem Founded.append_missing (hd : (es.map (·.id)).Nodup) {placed line : List SymbolEntry}
    {e : SymbolEntry} (h : Founded es placed) (hplaced : placed ⊆ es) (hline : Lineage es e line)
    (he : e ∈ es) : Founded es (placed ++ missing placed line) := by
  induction hline with
  | @root e hn =>
    by_cases hid : e.id ∈ placed.map (·.id)
    · rw [missing_singleton_of_mem hid, List.append_nil]
      exact h
    · rw [missing_singleton_of_not_mem hid]
      exact .snoc h fun w hw => by simp [hn] at hw
  | @owned e o line ho hline ih =>
    have hfounded := ih ho.1
    by_cases hid : e.id ∈ placed.map (·.id)
    · rw [missing_append, missing_singleton_of_mem hid, List.append_nil]
      exact hfounded
    · rw [missing_append, missing_singleton_of_not_mem hid, ← List.append_assoc]
      refine .snoc hfounded fun w hw => ⟨o, ?_, ?_⟩
      · exact mem_append_missing hd hplaced (hline.subset ho.1) hline.mem_self
      · simpa [ho.2] using hw

theorem Arranged.founded (hd : (es.map (·.id)).Nodup) {before placed : List SymbolEntry}
    (h : Arranged es before placed) (hes : before ⊆ es) : Founded es placed := by
  induction h with
  | nil => exact .nil
  | @snoc before placed line e hplaced hline ih =>
    obtain ⟨hbefore, he⟩ := List.append_subset.1 hes
    exact (ih hbefore).append_missing hd (hplaced.subset hbefore) hline
      (he (List.mem_singleton_self e))

/-! ## Positions and entries -/

/-- The entries at some positions. -/
def entriesAt (es : List SymbolEntry) (is : List Nat) : List SymbolEntry :=
  is.filterMap (es[·]?)

theorem entriesAt_append (es : List SymbolEntry) (is js : List Nat) :
    entriesAt es (is ++ js) = entriesAt es is ++ entriesAt es js :=
  List.filterMap_append

theorem entriesAt_cons {i : Nat} (hi : i < es.length) (is : List Nat) :
    entriesAt es (i :: is) = es[i] :: entriesAt es is := by
  simp [entriesAt, hi]

theorem entriesAt_range (es : List SymbolEntry) : entriesAt es (List.range es.length) = es := by
  have htake (n : Nat) (hn : n ≤ es.length) : entriesAt es (List.range n) = es.take n := by
    induction n with
    | zero => rfl
    | succ n ih =>
      rw [List.range_succ, entriesAt_append, ih (Nat.le_of_succ_le hn), entriesAt_cons hn,
        List.take_succ_eq_append_getElem hn]
      rfl
  rw [htake es.length (Nat.le_refl _), List.take_length]

/-- Where identifiers differ, a position is in a list exactly if its entry is at one of
the list. -/
theorem id_mem_entriesAt_iff (hd : (es.map (·.id)).Nodup) {i : Nat} (hi : i < es.length)
    {is : List Nat} : es[i].id ∈ (entriesAt es is).map (·.id) ↔ i ∈ is := by
  rw [List.mem_map]
  constructor
  · rintro ⟨e, he, hid⟩
    obtain ⟨j, hj, hje⟩ := List.mem_filterMap.1 he
    obtain ⟨hjlt, rfl⟩ := List.getElem?_eq_some_iff.1 hje
    have hids : (es.map (·.id))[j]? = (es.map (·.id))[i]? := by
      simp [hjlt, hi, hid]
    have hji : j = i := (List.getElem?_inj (by simpa using hjlt) hd).1 hids
    exact hji ▸ hj
  · intro h
    exact ⟨es[i], List.mem_filterMap.2 ⟨i, h, List.getElem?_eq_getElem hi⟩, rfl⟩

/-! ## The order that is found -/

/-- A climb that succeeds adds the missing part of a lineage. -/
theorem entriesAt_climb (hd : (es.map (·.id)).Nodup) {taken below more : List Nat} {i : Nat}
    {hi : i < es.length}
    (hclosed : ∀ e ∈ entriesAt es taken, ∃ line, Lineage es e line ∧ line ⊆ entriesAt es taken)
    (h : climb es taken below i hi = .ok more) :
    ∃ line, Lineage es es[i] line ∧
      entriesAt es more = missing (entriesAt es taken) line ++ entriesAt es below := by
  fun_induction climb es taken below i hi with
  | case1 below i hi htaken =>
    -- the owners of a taken entry were taken with it, so nothing is missing
    cases h
    have hmem : es[i] ∈ entriesAt es taken :=
      List.mem_filterMap.2 ⟨i, by simpa using htaken, List.getElem?_eq_getElem hi⟩
    obtain ⟨line, hline, hsub⟩ := hclosed es[i] hmem
    exact ⟨line, hline, by rw [missing_eq_nil_of_subset hsub, List.nil_append]⟩
  | case2 => cases h
  | case3 below i hi htaken _ howner =>
    cases h
    have hnew : es[i].id ∉ (entriesAt es taken).map (·.id) := by
      rw [id_mem_entriesAt_iff hd hi]
      simpa using htaken
    refine ⟨[es[i]], .root howner, ?_⟩
    rw [entriesAt_cons hi, missing_singleton_of_not_mem hnew, List.singleton_append]
  | case4 => cases h
  | case5 below i hi htaken _ w howner o ho ih =>
    obtain ⟨line, hline, hmore⟩ := ih h
    have hnew : es[i].id ∉ (entriesAt es taken).map (·.id) := by
      rw [id_mem_entriesAt_iff hd hi]
      simpa using htaken
    refine ⟨line ++ [es[i]], .owned (ownedBy_of_position? (position?_lt ho) howner ho) hline, ?_⟩
    rw [hmore, entriesAt_cons hi, missing_append, missing_singleton_of_not_mem hnew,
      List.append_assoc, List.singleton_append]

theorem arranged_of_orderFrom (hd : (es.map (·.id)).Nodup) {taken is positions : List Nat}
    {his : ∀ i ∈ is, i < es.length} {before : List SymbolEntry} (hbefore : before ⊆ es)
    (ht : Arranged es before (entriesAt es taken))
    (h : orderFrom es taken is his = .ok positions) :
    Arranged es (before ++ entriesAt es is) (entriesAt es positions) := by
  induction is generalizing taken before with
  | nil =>
    cases h
    simpa [entriesAt] using ht
  | cons i is ih =>
    rw [orderFrom] at h
    split at h
    · cases h
    · rename_i more hmore
      have hi : i < es.length := his i List.mem_cons_self
      obtain ⟨line, hline, hmissing⟩ :=
        entriesAt_climb hd (fun e he => ht.lineage_subset hd hbefore (.inr he)) hmore
      have ht' : Arranged es (before ++ [es[i]]) (entriesAt es (taken ++ more)) := by
        rw [entriesAt_append, hmissing]
        simpa [entriesAt] using Arranged.snoc ht hline
      have hbefore' : before ++ [es[i]] ⊆ es :=
        List.append_subset.2 ⟨hbefore, by simp⟩
      have hrest := ih hbefore' ht' h
      rwa [List.append_assoc, List.singleton_append, ← entriesAt_cons hi] at hrest

/-- Entries are declared in the order in which they stand, behind their owners. -/
theorem arranged_of_order (hd : (es.map (·.id)).Nodup) {positions : List Nat}
    (h : order es = .ok positions) : Arranged es es (positions.filterMap (es[·]?)) := by
  have hrun := arranged_of_orderFrom hd (List.nil_subset es) .nil h
  rwa [List.nil_append, entriesAt_range] at hrun

end Document

end Nullness
