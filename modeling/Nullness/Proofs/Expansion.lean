import Nullness.Expansion

/-!
# What an expansion holds

Following a list of annotations is a depth-first walk over annotation types. Here
it is described by two lists: the annotations that the walk keeps (`fresh`) and the
types it has met at the end (`seenAfter`), each with one equation per step and an
induction principle of its own (`fresh_induct`).

- `Graph.Reached`: what can be reached from a list without entering barred types.
- `Graph.reached_of_mem_fresh`, `Graph.type_mem_of_reached`: a walk keeps only what
  is reached, and meets every type that is.
- `Graph.nodup_types_fresh`: no type is kept twice.
- `Graph.fresh_append`: a walk over two lists is a walk over the one and then over the other.
- `Graph.fresh_of_closed`: a walk that has met more types from the start, and all that these
  lead to, keeps the same annotations less those of the types in question.
- `Graph.fresh_congr`: a walk depends only on the types that it can meet.
-/

namespace Nullness

namespace Graph

variable {g g' : Graph} {seen seen' : List SymbolId} {as : List Annotation}

/-- What following `as` adds to the kept annotations when the types in `seen` were met before. -/
def fresh (g : Graph) (seen : List SymbolId) (as : List Annotation) : List Annotation :=
  (g.follow ⟨seen, #[]⟩ as).1.kept.toList

/-- The types that have been met once `as` is followed. -/
def seenAfter (g : Graph) (seen : List SymbolId) (as : List Annotation) : List SymbolId :=
  (g.follow ⟨seen, #[]⟩ as).1.seen

theorem expand_eq_fresh (g : Graph) (as : List Annotation) : g.expand as = g.fresh [] as := rfl

/-! ## One equation per step -/

/-- What was kept before has no influence on the walk. -/
theorem follow_uniform (g : Graph) (t : Trail) (as : List Annotation) :
    ∃ after new, ∀ kept, (g.follow ⟨t.seen, kept⟩ as).1 = ⟨after, kept ++ new⟩ := by
  induction t, as using Graph.follow.induct g with
  | case1 t => exact ⟨t.seen, #[], fun kept => by rw [follow, Array.append_empty]⟩
  | case2 t a rest h ih =>
      obtain ⟨after, new, hrest⟩ := ih
      refine ⟨after, new, fun kept => ?_⟩
      rw [follow, dif_pos h]
      exact hrest kept
  | case3 t a rest h inner ihInner ihOuter =>
      obtain ⟨mid, newInner, hInner⟩ := ihInner
      obtain ⟨after, newOuter, hOuter⟩ := ihOuter
      -- the outer walk starts from the types that the inner one has met, whatever was kept
      have hmid : inner.1.seen = mid := congrArg Trail.seen (hInner _)
      refine ⟨after, #[a] ++ newInner ++ newOuter, fun kept => ?_⟩
      rw [follow, dif_neg h]
      show (g.follow (g.follow ⟨a.type :: t.seen, kept.push a⟩ (g.annotations a.type)).1 rest).1 = _
      rw [hInner (kept.push a), ← hmid, hOuter]
      simp

theorem follow_eq (g : Graph) (t : Trail) (as : List Annotation) :
    (g.follow t as).1 = ⟨g.seenAfter t.seen as, t.kept ++ (g.fresh t.seen as).toArray⟩ := by
  obtain ⟨after, new, h⟩ := g.follow_uniform t as
  rw [fresh, seenAfter, h #[], h t.kept]
  simp

@[simp] theorem fresh_nil (g : Graph) (seen : List SymbolId) : g.fresh seen [] = [] := by
  rw [fresh, follow]

@[simp] theorem seenAfter_nil (g : Graph) (seen : List SymbolId) : g.seenAfter seen [] = seen := by
  rw [seenAfter, follow]

section Cons
variable {a : Annotation} {rest : List Annotation}

theorem fresh_cons_of_mem (h : a.type ∈ seen) : g.fresh seen (a :: rest) = g.fresh seen rest := by
  rw [fresh, follow, dif_pos h, fresh]

theorem seenAfter_cons_of_mem (h : a.type ∈ seen) :
    g.seenAfter seen (a :: rest) = g.seenAfter seen rest := by
  rw [seenAfter, follow, dif_pos h, seenAfter]

theorem fresh_cons_of_not_mem (h : a.type ∉ seen) :
    g.fresh seen (a :: rest) =
      a :: (g.fresh (a.type :: seen) (g.annotations a.type) ++
        g.fresh (g.seenAfter (a.type :: seen) (g.annotations a.type)) rest) := by
  rw [fresh, follow, dif_neg h]
  simp [follow_eq]

theorem seenAfter_cons_of_not_mem (h : a.type ∉ seen) :
    g.seenAfter seen (a :: rest) =
      g.seenAfter (g.seenAfter (a.type :: seen) (g.annotations a.type)) rest := by
  rw [seenAfter, follow, dif_neg h]
  simp [follow_eq]

end Cons

/-- Induction along the walk: a list ends, goes on after a type that was met before, or
enters a new type, walks over what is attached to it and then goes on. -/
theorem fresh_induct (g : Graph) {motive : List SymbolId → List Annotation → Prop}
    (nil : ∀ seen, motive seen [])
    (skip : ∀ seen a rest, a.type ∈ seen → motive seen rest → motive seen (a :: rest))
    (enter : ∀ seen a rest, a.type ∉ seen →
      motive (a.type :: seen) (g.annotations a.type) →
      motive (g.seenAfter (a.type :: seen) (g.annotations a.type)) rest →
      motive seen (a :: rest))
    (seen : List SymbolId) (as : List Annotation) : motive seen as := by
  -- the induction of `follow` runs over trails, of which only the types met matter here
  suffices h : ∀ (t : Trail) (as : List Annotation), motive t.seen as from h ⟨seen, #[]⟩ as
  intro t as
  induction t, as using Graph.follow.induct g with
  | case1 t => exact nil t.seen
  | case2 t a rest h ih => exact skip t.seen a rest h ih
  | case3 t a rest h inner ihInner ihOuter =>
      have hfollow := g.follow_eq ⟨a.type :: t.seen, t.kept.push a⟩ (g.annotations a.type)
      have hmid : inner.1.seen = g.seenAfter (a.type :: t.seen) (g.annotations a.type) := by
        rw [show inner.1 = _ from hfollow]
      rw [hmid] at ihOuter
      exact enter t.seen a rest h ihInner ihOuter

/-! ## What is met, and what is kept -/

theorem mem_seenAfter {i : SymbolId} :
    i ∈ g.seenAfter seen as ↔ i ∈ seen ∨ ∃ a ∈ g.fresh seen as, a.type = i := by
  induction seen, as using g.fresh_induct with
  | nil seen => simp
  | skip seen a rest h ih => rw [seenAfter_cons_of_mem h, fresh_cons_of_mem h, ih]
  | enter seen a rest h ihInner ihOuter =>
      rw [seenAfter_cons_of_not_mem h, fresh_cons_of_not_mem h, ihOuter, ihInner]
      simp only [List.mem_cons, List.mem_append]
      constructor
      · rintro (((rfl | hseen) | ⟨b, hb, rfl⟩) | ⟨b, hb, rfl⟩)
        · exact Or.inr ⟨a, Or.inl rfl, rfl⟩
        · exact Or.inl hseen
        · exact Or.inr ⟨b, Or.inr (Or.inl hb), rfl⟩
        · exact Or.inr ⟨b, Or.inr (Or.inr hb), rfl⟩
      · rintro (hseen | ⟨b, rfl | hb | hb, rfl⟩)
        · exact Or.inl (Or.inl (Or.inr hseen))
        · exact Or.inl (Or.inl (Or.inl rfl))
        · exact Or.inl (Or.inr ⟨b, hb, rfl⟩)
        · exact Or.inr ⟨b, hb, rfl⟩

theorem mem_seenAfter_of_mem {i : SymbolId} (h : i ∈ seen) : i ∈ g.seenAfter seen as :=
  mem_seenAfter.mpr (Or.inl h)

/-- Nothing is kept whose type was met before. -/
theorem type_not_mem_of_fresh {a : Annotation} (ha : a ∈ g.fresh seen as) : a.type ∉ seen := by
  induction seen, as using g.fresh_induct with
  | nil seen => simp at ha
  | skip seen b rest h ih =>
      rw [fresh_cons_of_mem h] at ha
      exact ih ha
  | enter seen b rest h ihInner ihOuter =>
      rw [fresh_cons_of_not_mem h, List.mem_cons, List.mem_append] at ha
      rcases ha with rfl | ha | ha
      · exact h
      · exact fun hseen => ihInner ha (List.mem_cons_of_mem _ hseen)
      · exact fun hseen =>
          ihOuter ha (mem_seenAfter_of_mem (List.mem_cons_of_mem _ hseen))

/-- No type is kept twice. -/
theorem nodup_types_fresh : ((g.fresh seen as).map (·.type)).Nodup := by
  induction seen, as using g.fresh_induct with
  | nil seen => simp
  | skip seen a rest h ih =>
      rw [fresh_cons_of_mem h]
      exact ih
  | enter seen a rest h ihInner ihOuter =>
      rw [fresh_cons_of_not_mem h, List.map_cons, List.map_append, List.nodup_cons,
        List.nodup_append]
      -- both walks start after the type of `a` was met, the outer one after all the inner kept
      refine ⟨fun hmem => ?_, ihInner, ihOuter, fun i hi j hj hij => ?_⟩
      · rcases List.mem_append.mp hmem with hb | hb
        · obtain ⟨b, hb, hba⟩ := List.mem_map.mp hb
          exact type_not_mem_of_fresh hb (hba ▸ List.mem_cons_self)
        · obtain ⟨b, hb, hba⟩ := List.mem_map.mp hb
          exact type_not_mem_of_fresh hb (mem_seenAfter_of_mem (hba ▸ List.mem_cons_self))
      · obtain ⟨b, hb, rfl⟩ := List.mem_map.mp hi
        obtain ⟨c, hc, rfl⟩ := List.mem_map.mp hj
        exact type_not_mem_of_fresh hc (mem_seenAfter.mpr (Or.inr ⟨b, hb, hij⟩))

/-! ## Reachability -/

/-- An annotation of `as`, or one attached to a type that is reached, as long as no type
on the way is barred. -/
inductive Reached (g : Graph) (barred : List SymbolId) (as : List Annotation) :
    Annotation → Prop
  | listed {a : Annotation} : a ∈ as → a.type ∉ barred → Reached g barred as a
  | attached {a b : Annotation} : Reached g barred as a → b ∈ g.annotations a.type →
      b.type ∉ barred → Reached g barred as b

theorem Reached.mono {bs : List Annotation} (hbarred : ∀ i, i ∈ seen → i ∈ seen')
    (hlist : ∀ a ∈ bs, a.type ∉ seen' → g.Reached seen as a) {a : Annotation}
    (h : g.Reached seen' bs a) : g.Reached seen as a := by
  induction h with
  | listed ha hb => exact hlist _ ha hb
  | attached _ hb hnew ih => exact .attached ih hb fun h => hnew (hbarred _ h)

/-- What is reached from the annotations of a symbol is attached to some symbol. -/
theorem Reached.attached_to {i : SymbolId} {a : Annotation}
    (h : g.Reached seen (g.annotations i) a) : ∃ j, a ∈ g.annotations j := by
  cases h with
  | listed ha _ => exact ⟨i, ha⟩
  | attached _ ha _ => exact ⟨_, ha⟩

/-- A walk keeps only what is reached. -/
theorem reached_of_mem_fresh {a : Annotation} (ha : a ∈ g.fresh seen as) :
    g.Reached seen as a := by
  induction seen, as using g.fresh_induct with
  | nil seen => simp at ha
  | skip seen b rest h ih =>
      rw [fresh_cons_of_mem h] at ha
      exact (ih ha).mono (fun _ => id) fun c hc hnew => .listed (List.mem_cons_of_mem _ hc) hnew
  | enter seen b rest h ihInner ihOuter =>
      have hhead : g.Reached seen (b :: rest) b := .listed List.mem_cons_self h
      have hinner : ∀ i, i ∈ seen → i ∈ b.type :: seen := fun _ => List.mem_cons_of_mem _
      rw [fresh_cons_of_not_mem h, List.mem_cons, List.mem_append] at ha
      -- the inner walk goes on from what is attached to `b`, the outer one from the list
      rcases ha with rfl | ha | ha
      · exact hhead
      · exact (ihInner ha).mono hinner fun c hc hnew =>
          .attached hhead hc fun hseen => hnew (hinner _ hseen)
      · exact (ihOuter ha).mono (fun i hi => mem_seenAfter_of_mem (hinner i hi))
          fun c hc hnew => .listed (List.mem_cons_of_mem _ hc)
            fun hseen => hnew (mem_seenAfter_of_mem (hinner _ hseen))

/-- All types of the list that is followed are met. -/
theorem type_mem_seenAfter {a : Annotation} (ha : a ∈ as) : a.type ∈ g.seenAfter seen as := by
  induction as generalizing seen with
  | nil => cases ha
  | cons b rest ih =>
      by_cases h : b.type ∈ seen
      · rw [seenAfter_cons_of_mem h]
        rcases List.mem_cons.mp ha with rfl | ha
        · exact mem_seenAfter_of_mem h
        · exact ih ha
      · rw [seenAfter_cons_of_not_mem h]
        rcases List.mem_cons.mp ha with rfl | ha
        · exact mem_seenAfter_of_mem (mem_seenAfter_of_mem List.mem_cons_self)
        · exact ih ha

/-- What is attached to the type of a kept annotation has a type that is met. -/
theorem attached_mem_seenAfter {a b : Annotation} (ha : a ∈ g.fresh seen as)
    (hb : b ∈ g.annotations a.type) : b.type ∈ g.seenAfter seen as := by
  induction seen, as using g.fresh_induct with
  | nil seen => simp at ha
  | skip seen c rest h ih =>
      rw [fresh_cons_of_mem h] at ha
      rw [seenAfter_cons_of_mem h]
      exact ih ha
  | enter seen c rest h ihInner ihOuter =>
      rw [fresh_cons_of_not_mem h, List.mem_cons, List.mem_append] at ha
      rw [seenAfter_cons_of_not_mem h]
      rcases ha with rfl | ha | ha
      · exact mem_seenAfter_of_mem (type_mem_seenAfter hb)
      · exact mem_seenAfter_of_mem (ihInner ha)
      · exact ihOuter ha

/-- A walk keeps an annotation of every type that is reached. -/
theorem type_mem_of_reached {a : Annotation} (h : g.Reached seen as a) :
    ∃ b ∈ g.fresh seen as, b.type = a.type := by
  have hmet : ∀ {c : Annotation}, c.type ∉ seen → c.type ∈ g.seenAfter seen as →
      ∃ b ∈ g.fresh seen as, b.type = c.type := fun hnew hc =>
    (mem_seenAfter.mp hc).resolve_left hnew
  induction h with
  | listed ha hnew => exact hmet hnew (type_mem_seenAfter ha)
  | @attached a b _ hb hnew ih =>
      obtain ⟨c, hc, hca⟩ := ih
      exact hmet hnew (attached_mem_seenAfter hc (hca.symm ▸ hb))

theorem type_mem_expand {a : Annotation} (ha : a ∈ as) : ∃ b ∈ g.expand as, b.type = a.type :=
  type_mem_of_reached (.listed ha List.not_mem_nil)

/-- More is reached from a longer list, in a graph with more attached. -/
theorem Reached.of_subset {bs : List Annotation}
    (hattached : ∀ i a, a ∈ g'.annotations i → a ∈ g.annotations i) (hlist : ∀ a, a ∈ bs → a ∈ as)
    {a : Annotation} (h : g'.Reached seen bs a) : g.Reached seen as a := by
  induction h with
  | listed ha hnew => exact .listed (hlist _ ha) hnew
  | attached _ hb hnew ih => exact .attached ih (hattached _ _ hb) hnew

/-! ## One list behind another -/

/-- The second of two lists is walked over with all types met that the first one led to. -/
theorem fresh_append {bs : List Annotation} :
    g.fresh seen (as ++ bs) = g.fresh seen as ++ g.fresh (g.seenAfter seen as) bs := by
  induction seen, as using g.fresh_induct with
  | nil seen => simp
  | skip seen a rest h ih =>
      rw [List.cons_append, fresh_cons_of_mem h, fresh_cons_of_mem h, seenAfter_cons_of_mem h]
      exact ih
  | enter seen a rest h ihInner ihOuter =>
      rw [List.cons_append, fresh_cons_of_not_mem h, fresh_cons_of_not_mem h,
        seenAfter_cons_of_not_mem h, ihOuter, List.cons_append, List.append_assoc]

/-- Nothing is new in a list of types that were met before. -/
theorem fresh_of_all_mem (h : ∀ a ∈ as, a.type ∈ seen) :
    g.fresh seen as = [] ∧ g.seenAfter seen as = seen := by
  induction as with
  | nil => simp
  | cons a as ih =>
      have ha : a.type ∈ seen := h a List.mem_cons_self
      rw [fresh_cons_of_mem ha, seenAfter_cons_of_mem ha]
      exact ih fun b hb => h b (List.mem_cons_of_mem _ hb)

/-! ## More types met from the start -/

/-- What is attached to these types is of these types again. -/
def Closed (g : Graph) (met : List SymbolId) : Prop :=
  ∀ i ∈ met, ∀ a ∈ g.annotations i, a.type ∈ met

/-- The types that a list leads to lead nowhere else. -/
theorem closed_types_expand (g : Graph) (as : List Annotation) :
    g.Closed ((g.expand as).map (·.type)) := by
  intro i hi b hb
  obtain ⟨a, ha, rfl⟩ := List.mem_map.mp hi
  have hmet : b.type ∈ g.seenAfter [] as := attached_mem_seenAfter ha hb
  exact List.mem_map.mpr ((mem_seenAfter.mp hmet).resolve_left List.not_mem_nil)

section MoreMet
variable {met : List SymbolId} (hseen : ∀ i, i ∈ seen' ↔ i ∈ met ∨ i ∈ seen)
include hseen

/-- Walks that keep the same annotations, less those of the types in `met`, meet the same
types besides. -/
theorem seenAfter_of_fresh_eq
    (hfresh : g.fresh seen' as = (g.fresh seen as).filter (·.type ∉ met)) (i : SymbolId) :
    i ∈ g.seenAfter seen' as ↔ i ∈ met ∨ i ∈ g.seenAfter seen as := by
  rw [mem_seenAfter, mem_seenAfter, hfresh, hseen i]
  by_cases hi : i ∈ met
  · simp [hi]
  · simp only [hi, false_or, List.mem_filter, decide_eq_true_eq]
    refine or_congr_right (exists_congr fun b => ?_)
    constructor
    · rintro ⟨⟨hb, -⟩, hbi⟩
      exact ⟨hb, hbi⟩
    · rintro ⟨hb, rfl⟩
      exact ⟨⟨hb, hi⟩, rfl⟩

/-- A walk that has met the types of a closed set from the start keeps the same annotations,
less those of these types. -/
theorem fresh_of_closed (hclosed : g.Closed met) :
    g.fresh seen' as = (g.fresh seen as).filter (·.type ∉ met) := by
  induction seen, as using g.fresh_induct generalizing seen' with
  | nil seen => simp
  | skip seen a rest h ih =>
      have h' : a.type ∈ seen' := (hseen _).mpr (Or.inr h)
      rw [fresh_cons_of_mem h, fresh_cons_of_mem h']
      exact ih hseen
  | enter seen a rest h ihInner ihOuter =>
      rw [fresh_cons_of_not_mem h]
      by_cases ha : a.type ∈ met
      · -- the other walk passes over `a`, and would find nothing new behind it
        have h' : a.type ∈ seen' := (hseen _).mpr (Or.inl ha)
        have hinner : ∀ i, i ∈ seen' ↔ i ∈ met ∨ i ∈ a.type :: seen := by
          intro i
          rw [hseen i, List.mem_cons, or_left_comm]
          exact (or_iff_right_of_imp fun hi => Or.inl (hi ▸ ha)).symm
        have hfresh := ihInner hinner
        have houter := seenAfter_of_fresh_eq hinner hfresh
        obtain ⟨hnone, hstay⟩ := fresh_of_all_mem (g := g) fun b hb =>
          (hseen _).mpr (Or.inl (hclosed _ ha b hb))
        rw [hnone] at hfresh
        rw [hstay] at houter
        rw [fresh_cons_of_mem h', List.filter_cons_of_neg (by simpa using ha),
          List.filter_append, ← hfresh, List.nil_append]
        exact ihOuter houter
      · have h' : a.type ∉ seen' := fun hmem => ((hseen _).mp hmem).elim ha h
        have hinner : ∀ i, i ∈ a.type :: seen' ↔ i ∈ met ∨ i ∈ a.type :: seen := by
          intro i
          rw [List.mem_cons, List.mem_cons, hseen i]
          exact or_left_comm
        have hfresh := ihInner hinner
        rw [fresh_cons_of_not_mem h', List.filter_cons_of_pos (by simpa using ha),
          List.filter_append, hfresh, ihOuter (seenAfter_of_fresh_eq hinner hfresh)]

end MoreMet

/-! ## Two graphs -/

/-- A walk that meets only types in `D` is the same in two graphs that attach the same
annotations to these. -/
theorem fresh_congr {D : SymbolId → Prop}
    (hsame : ∀ i, D i → g'.annotations i = g.annotations i)
    (hclosed : ∀ i, D i → ∀ a ∈ g.annotations i, D a.type) (hlist : ∀ a ∈ as, D a.type) :
    g'.fresh seen as = g.fresh seen as ∧ g'.seenAfter seen as = g.seenAfter seen as := by
  induction seen, as using g.fresh_induct with
  | nil seen => simp
  | skip seen a rest h ih =>
      obtain ⟨hfresh, hseen⟩ := ih fun b hb => hlist b (List.mem_cons_of_mem _ hb)
      rw [fresh_cons_of_mem h, fresh_cons_of_mem h, seenAfter_cons_of_mem h,
        seenAfter_cons_of_mem h]
      exact ⟨hfresh, hseen⟩
  | enter seen a rest h ihInner ihOuter =>
      have ha : D a.type := hlist a List.mem_cons_self
      obtain ⟨hfresh, hseen⟩ := ihInner (hclosed a.type ha)
      obtain ⟨hfresh', hseen'⟩ := ihOuter fun b hb => hlist b (List.mem_cons_of_mem _ hb)
      rw [fresh_cons_of_not_mem h, fresh_cons_of_not_mem h, seenAfter_cons_of_not_mem h,
        seenAfter_cons_of_not_mem h, hsame a.type ha, hfresh, hseen, hfresh', hseen']
      exact ⟨rfl, rfl⟩

end Graph

end Nullness
