import Mathlib.Data.List.Forall2
import Mathlib.Data.List.Nodup
import Nullness.Document.Form

/-!
# Records as JSON values

A record is an object with its fields in any order, or the list of the values of its fields in
their own order. A field that is optional may be left out of the object, and of the list if all
fields behind it are. The entries of an argument and of an annotation are read from exactly such
values.

- `Document.Slot.Written`: the two forms of a record.
- `Document.Slot.entries_iff`: the fields of an object, one by one.
- `Document.ArgumentEntry.ofJson?_iff_written`, `Document.AnnotationEntry.ofJson?_iff_written`:
  the values that an argument and an annotation are read from.
-/

namespace Nullness

namespace Document

/-! ## Records -/

/-- A field of a record that is to be written. -/
structure Slot where
  name : String
  /-- The values that may be written for it. -/
  admits : Json → Prop
  /-- It may be left out. -/
  optional : Prop

namespace Slot

/-- The fields in the order of the record, those at the end left out. -/
inductive Elements : List Slot → List Json → Prop
  | nil {slots : List Slot} (h : ∀ slot ∈ slots, slot.optional) : Elements slots []
  | cons {slot : Slot} {slots : List Slot} {v : Json} {vs : List Json} (hv : slot.admits v)
      (h : Elements slots vs) : Elements (slot :: slots) (v :: vs)

/-- The fields named in `seen` are all that are needed. -/
def Suffice (slots : List Slot) (seen : List String) : Prop :=
  ∀ slot ∈ slots, slot.name ∉ seen → slot.optional

theorem suffice_cons {slot : Slot} {slots : List Slot} {seen : List String} :
    Suffice (slot :: slots) seen ↔ (slot.name ∉ seen → slot.optional) ∧ Suffice slots seen :=
  List.forall_mem_cons

/-- The fields in any order, each once, some left out. -/
structure Entries (slots : List Slot) (es : List (String × Json)) : Prop where
  nodup : (es.map Prod.fst).Nodup
  admits : ∀ e ∈ es, ∃ slot ∈ slots, slot.name = e.1 ∧ slot.admits e.2
  suffice : Suffice slots (es.map Prod.fst)

/-- A record with these fields. -/
inductive Written (slots : List Slot) : Json → Prop
  | object {es : List (String × Json)} (h : Entries slots es) : Written slots (.obj es)
  | list {vs : List Json} (h : Elements slots vs) : Written slots (.arr vs)

end Slot

/-! ## Keys of an object -/

/-- The key `k` occurs exactly once, and `v` is its value. -/
def Once (k : String) (v : Json) (es : List (String × Json)) : Prop :=
  es.filter (·.1 == k) = [(k, v)]

section Keys
variable {k k' : String} {v v' : Json} {es : List (String × Json)}

theorem filter_key_eq_nil_iff : es.filter (·.1 == k) = [] ↔ k ∉ es.map Prod.fst := by
  simp only [List.filter_eq_nil_iff, beq_iff_eq, List.mem_map, not_exists, not_and]

theorem once_cons_self : Once k v ((k, v') :: es) ↔ v' = v ∧ k ∉ es.map Prod.fst := by
  rw [Once, List.filter_cons_of_pos (by simp), ← filter_key_eq_nil_iff]
  simp

theorem once_cons_of_ne (h : k' ≠ k) : Once k v ((k', v') :: es) ↔ Once k v es := by
  rw [Once, Once, List.filter_cons_of_neg (by simpa using h)]

theorem Once.unique (h : Once k v es) (h' : Once k v' es) : v = v' := by
  rw [Once, h] at h'
  simpa using h'

theorem Once.mem (h : Once k v es) : (k, v) ∈ es := by
  have hmem : (k, v) ∈ es.filter (·.1 == k) := h ▸ List.mem_cons_self
  exact (List.mem_filter.mp hmem).1

/-- No other value stands behind the key. -/
theorem Once.eq_of_mem (h : Once k v es) (hmem : (k, v') ∈ es) : v' = v := by
  have hmem : (k, v') ∈ es.filter (·.1 == k) := List.mem_filter.mpr ⟨hmem, beq_self_eq_true k⟩
  rw [h] at hmem
  simpa using hmem

theorem once_of_nodup (hnodup : (es.map Prod.fst).Nodup) (hmem : (k, v) ∈ es) : Once k v es := by
  induction es with
  | nil => cases hmem
  | cons e es ih =>
    rw [List.map_cons, List.nodup_cons] at hnodup
    rcases List.mem_cons.mp hmem with rfl | hmem
    · exact once_cons_self.mpr ⟨rfl, hnodup.1⟩
    · have hkey : k ∈ es.map Prod.fst := List.mem_map_of_mem hmem
      have hne : e.1 ≠ k := fun heq => hnodup.1 (heq ▸ hkey)
      exact (once_cons_of_ne hne).mpr (ih hnodup.2 hmem)

theorem nodup_of_once (h : ∀ k ∈ es.map Prod.fst, ∃ v, Once k v es) : (es.map Prod.fst).Nodup := by
  induction es with
  | nil => exact List.nodup_nil
  | cons e es ih =>
    obtain ⟨_, hfirst⟩ := h e.1 List.mem_cons_self
    have hfirst : e.1 ∉ es.map Prod.fst := (once_cons_self.mp hfirst).2
    refine List.nodup_cons.mpr ⟨hfirst, ih fun k hk => ?_⟩
    obtain ⟨v, hv⟩ := h k (List.mem_cons_of_mem _ hk)
    have hne : e.1 ≠ k := fun heq => hfirst (heq ▸ hk)
    exact ⟨v, (once_cons_of_ne hne).mp hv⟩

end Keys

/-! ## Fields of a record -/

section Slots
variable {slot : Slot} {slots : List Slot} {es : List (String × Json)}

/-- The field occurs once, with a value that may be written for it, or it does not have to. -/
def Slot.Met (slot : Slot) (es : List (String × Json)) : Prop :=
  (slot.name ∉ es.map Prod.fst ∧ slot.optional) ∨ ∃ v, Once slot.name v es ∧ slot.admits v

/-- The fields of an object, one by one. -/
theorem Slot.entries_iff (hnodup : (slots.map Slot.name).Nodup) :
    Slot.Entries slots es ↔
      (∀ k ∈ es.map Prod.fst, k ∈ slots.map Slot.name) ∧ ∀ slot ∈ slots, slot.Met es := by
  constructor
  · rintro ⟨hkeys, hadmits, hsuffice⟩
    constructor
    · intro k hk
      obtain ⟨e, he, rfl⟩ := List.mem_map.mp hk
      obtain ⟨slot, hslot, hname, -⟩ := hadmits e he
      exact hname ▸ List.mem_map_of_mem hslot
    · intro slot hslot
      by_cases hseen : slot.name ∈ es.map Prod.fst
      · obtain ⟨⟨k, v⟩, he, rfl⟩ := List.mem_map.mp hseen
        obtain ⟨slot', hslot', hname, hv⟩ := hadmits _ he
        obtain rfl := List.inj_on_of_nodup_map hnodup hslot' hslot hname
        exact Or.inr ⟨v, once_of_nodup hkeys he, hv⟩
      · exact Or.inl ⟨hseen, hsuffice slot hslot hseen⟩
  · rintro ⟨hknown, hmet⟩
    have honce : ∀ k ∈ es.map Prod.fst, ∃ slot ∈ slots, slot.name = k ∧
        ∃ v, Once k v es ∧ slot.admits v := by
      intro k hk
      obtain ⟨slot, hslot, rfl⟩ := List.mem_map.mp (hknown k hk)
      refine ⟨slot, hslot, rfl, ?_⟩
      exact (hmet slot hslot).resolve_left fun habsent => habsent.1 hk
    refine ⟨nodup_of_once fun k hk => ?_, fun e he => ?_, fun slot hslot hseen => ?_⟩
    · obtain ⟨_, -, -, v, hv, -⟩ := honce k hk
      exact ⟨v, hv⟩
    · obtain ⟨slot, hslot, hname, v, hv, hadmits⟩ := honce e.1 (List.mem_map_of_mem he)
      obtain rfl := hv.eq_of_mem he
      exact ⟨slot, hslot, hname, hadmits⟩
    · rcases hmet slot hslot with ⟨-, hoptional⟩ | ⟨v, hv, -⟩
      · exact hoptional
      · exact absurd (List.mem_map_of_mem hv.mem) hseen

/-- What may be written for one field may be written for another. -/
structure Slot.Covers (slot slot' : Slot) : Prop where
  name : slot.name = slot'.name
  admits : ∀ v, slot.admits v → slot'.admits v
  optional : slot.optional → slot'.optional

theorem exists_of_forall₂ {α β : Type} {R : α → β → Prop} {as : List α} {bs : List β} {a : α}
    (h : List.Forall₂ R as bs) (ha : a ∈ as) : ∃ b ∈ bs, R a b := by
  induction h with
  | nil => cases ha
  | @cons a' b as bs hab _ ih =>
    rcases List.mem_cons.mp ha with rfl | ha
    · exact ⟨b, List.mem_cons_self, hab⟩
    · obtain ⟨b, hb, hab⟩ := ih ha
      exact ⟨b, List.mem_cons_of_mem _ hb, hab⟩

theorem Slot.Entries.imp {slots' : List Slot} (hes : Slot.Entries slots es)
    (h : List.Forall₂ Slot.Covers slots slots') : Slot.Entries slots' es := by
  refine ⟨hes.nodup, fun e he => ?_, fun slot' hslot' hseen => ?_⟩
  · obtain ⟨slot, hslot, hname, hv⟩ := hes.admits e he
    obtain ⟨slot', hslot', hcovers⟩ := exists_of_forall₂ h hslot
    exact ⟨slot', hslot', hcovers.name.symm.trans hname, hcovers.admits _ hv⟩
  · obtain ⟨slot, hslot, hcovers⟩ := exists_of_forall₂ h.flip hslot'
    exact hcovers.optional (hes.suffice slot hslot (hcovers.name ▸ hseen))

theorem Slot.Elements.imp {slots' : List Slot} {vs : List Json} (hvs : Slot.Elements slots vs)
    (h : List.Forall₂ Slot.Covers slots slots') : Slot.Elements slots' vs := by
  induction hvs generalizing slots' with
  | nil hopt =>
    refine .nil fun slot' hslot' => ?_
    obtain ⟨slot, hslot, hcovers⟩ := exists_of_forall₂ h.flip hslot'
    exact hcovers.optional (hopt slot hslot)
  | cons hv _ ih =>
    obtain _ | ⟨hcovers, h⟩ := h
    exact .cons (hcovers.admits _ hv) (ih h)

theorem Slot.Written.imp {slots' : List Slot} {j : Json} (hj : Slot.Written slots j)
    (h : List.Forall₂ Slot.Covers slots slots') : Slot.Written slots' j := by
  cases hj with
  | object hes => exact .object (hes.imp h)
  | list hvs => exact .list (hvs.imp h)

theorem Slot.elements_nil_iff : Slot.Elements slots [] ↔ ∀ slot ∈ slots, slot.optional := by
  constructor
  · rintro (h | _)
    exact h
  · exact .nil

theorem Slot.elements_cons_iff {v : Json} {vs : List Json} :
    Slot.Elements (slot :: slots) (v :: vs) ↔ slot.admits v ∧ Slot.Elements slots vs := by
  constructor
  · rintro (_ | ⟨hv, hvs⟩)
    exact ⟨hv, hvs⟩
  · exact fun h => .cons h.1 h.2

theorem Slot.not_elements_nil_cons {v : Json} {vs : List Json} :
    ¬ Slot.Elements [] (v :: vs) := by
  rintro (_ | _)

theorem Slot.written_obj_iff : Slot.Written slots (.obj es) ↔ Slot.Entries slots es := by
  constructor
  · rintro (h | _)
    exact h
  · exact .object

theorem Slot.written_arr_iff {vs : List Json} :
    Slot.Written slots (.arr vs) ↔ Slot.Elements slots vs := by
  constructor
  · rintro (_ | h)
    exact h
  · exact .list

end Slots

/-! ## Drafts -/

section Gained
variable {α : Type} {k name : String} {read : Json → Option α} {v : Json}
variable {es : List (String × Json)} {before after : Option α}

/-- What the entries of an object do to a field of a draft. Either they do not have it, or they have
it once, with a value that can be read, and it was not set before. -/
def Gained (name : String) (read : Json → Option α) (es : List (String × Json))
    (before after : Option α) : Prop :=
  (name ∉ es.map Prod.fst ∧ after = before) ∨
    (before = none ∧ ∃ v, Once name v es ∧ ∃ a, read v = some a ∧ after = some a)

theorem gained_nil : Gained name read [] before after ↔ after = before := by
  simp [Gained, Once]

theorem gained_cons_of_ne (h : k ≠ name) :
    Gained name read ((k, v) :: es) before after ↔ Gained name read es before after := by
  simp only [Gained, once_cons_of_ne h, List.map_cons, List.mem_cons, Ne.symm h, false_or]

theorem gained_cons_self :
    Gained k read ((k, v) :: es) before after ↔
      before = none ∧ ∃ a, read v = some a ∧ Gained k read es (some a) after := by
  simp only [Gained, once_cons_self, List.map_cons, List.mem_cons, true_or, not_true, false_and,
    false_or, reduceCtorEq, or_false]
  constructor
  · rintro ⟨hbefore, _, ⟨rfl, hk⟩, a, hread, rfl⟩
    exact ⟨hbefore, a, hread, hk, rfl⟩
  · rintro ⟨hbefore, a, hread, hk, rfl⟩
    exact ⟨hbefore, v, ⟨rfl, hk⟩, a, hread, rfl⟩

/-- A field that is needed. -/
theorem gained_none_some {a : α} :
    Gained name read es none (some a) ↔ ∃ v, Once name v es ∧ read v = some a := by
  simp [Gained]

/-- A field that has a default. -/
theorem exists_gained_getD {a default : α} :
    (∃ after, Gained name read es none after ∧ after.getD default = a) ↔
      (name ∉ es.map Prod.fst ∧ a = default) ∨ ∃ v, Once name v es ∧ read v = some a := by
  rw [← gained_none_some]
  constructor
  · rintro ⟨after, hafter, rfl⟩
    cases after with
    | none => exact Or.inl ⟨(hafter.resolve_right fun h => by simp at h).1, rfl⟩
    | some a => exact Or.inr hafter
  · rintro (⟨habsent, rfl⟩ | hafter)
    · exact ⟨none, Or.inl ⟨habsent, rfl⟩, rfl⟩
    · exact ⟨some a, hafter, rfl⟩

end Gained

section Drafts
variable {es : List (String × Json)}

/-- The fields of an annotation are read one by one. -/
theorem AnnotationDraft.ofEntries?_eq_some_iff {d d' : AnnotationDraft} :
    AnnotationDraft.ofEntries? d es = some d' ↔
      (∀ k ∈ es.map Prod.fst, k ∈ ["type", "unresolved", "arguments"]) ∧
        Gained "type" string? es d.type d'.type ∧
        Gained "unresolved" bool? es d.isUnresolved d'.isUnresolved ∧
        Gained "arguments" ArgumentEntry.ofList? es d.arguments d'.arguments := by
  induction es generalizing d with
  | nil =>
    cases d
    cases d'
    simp [AnnotationDraft.ofEntries?, gained_nil, eq_comm]
  | cons e es ih =>
    obtain ⟨k, v⟩ := e
    rw [AnnotationDraft.ofEntries?, List.map_cons, List.forall_mem_cons]
    by_cases htype : k = "type"
    · subst htype
      rw [gained_cons_self, gained_cons_of_ne (by decide), gained_cons_of_ne (by decide)]
      cases d.type <;> cases string? v <;> simp [ih]
    · by_cases hunresolved : k = "unresolved"
      · subst hunresolved
        rw [gained_cons_self, gained_cons_of_ne (by decide), gained_cons_of_ne (by decide)]
        cases d.isUnresolved <;> cases bool? v <;> simp [ih]
      · by_cases harguments : k = "arguments"
        · subst harguments
          rw [gained_cons_self, gained_cons_of_ne (by decide), gained_cons_of_ne (by decide)]
          cases d.arguments <;> cases ArgumentEntry.ofList? v <;> simp [ih]
        · simp [htype, hunresolved, harguments]

/-- The fields of an argument are read one by one. -/
theorem ArgumentDraft.ofEntries?_eq_some_iff {d d' : ArgumentDraft} :
    ArgumentDraft.ofEntries? d es = some d' ↔
      (∀ k ∈ es.map Prod.fst, k ∈ ["name", "value"]) ∧
        Gained "name" string? es d.name d'.name ∧
        Gained "value" ValueEntry.ofJson? es d.value d'.value := by
  induction es generalizing d with
  | nil =>
    cases d
    cases d'
    simp [ArgumentDraft.ofEntries?, gained_nil, eq_comm]
  | cons e es ih =>
    obtain ⟨k, v⟩ := e
    rw [ArgumentDraft.ofEntries?, List.map_cons, List.forall_mem_cons]
    by_cases hname : k = "name"
    · subst hname
      rw [gained_cons_self, gained_cons_of_ne (by decide)]
      cases d.name <;> cases string? v <;> simp [ih]
    · by_cases hvalue : k = "value"
      · subst hvalue
        rw [gained_cons_self, gained_cons_of_ne (by decide)]
        cases d.value <;> cases ValueEntry.ofJson? v <;> simp [ih]
      · simp [hname, hvalue]

end Drafts

/-! ## Records -/

theorem string?_eq_some_iff {j : Json} {s : String} : string? j = some s ↔ j = .str s := by
  cases j <;> simp [string?]

theorem bool?_eq_some_iff {j : Json} {b : Bool} : bool? j = some b ↔ j = .bool b := by
  cases j <;> simp [bool?]

theorem ArgumentEntry.ofList?_eq_some_iff {j : Json} {as : List ArgumentEntry} :
    ArgumentEntry.ofList? j = some as ↔
      ∃ js, ArgumentEntry.ofElements? js = some as ∧ j = .arr js := by
  cases j <;> simp [ArgumentEntry.ofList?]

section Records
variable {j : Json} {es : List (String × Json)} {vs : List Json}

/-- The fields of an annotation whose arguments are listed by what `lists` admits. -/
def AnnotationEntry.slotsWith (a : AnnotationEntry) (lists : List Json → Prop) : List Slot :=
  [ ⟨"type", fun j => j = .str a.type, False⟩,
    ⟨"unresolved", fun j => j = .bool a.isUnresolved, a.isUnresolved = false⟩,
    ⟨"arguments", fun j => ∃ js, lists js ∧ j = .arr js, a.arguments = []⟩ ]

/-- The fields of an argument whose value is written by what `stands` admits. -/
def ArgumentEntry.slotsWith (a : ArgumentEntry) (stands : Json → Prop) : List Slot :=
  [⟨"name", fun j => j = .str a.name, False⟩, ⟨"value", stands, False⟩]

theorem AnnotationEntry.nodup_slotsWith (a : AnnotationEntry) {lists : List Json → Prop} :
    ((a.slotsWith lists).map Slot.name).Nodup := by
  show ["type", "unresolved", "arguments"].Nodup
  decide

theorem ArgumentEntry.nodup_slotsWith (a : ArgumentEntry) {stands : Json → Prop} :
    ((a.slotsWith stands).map Slot.name).Nodup := by
  show ["name", "value"].Nodup
  decide

theorem AnnotationDraft.complete?_eq_some_iff {d : AnnotationDraft} {a : AnnotationEntry} :
    d.complete? = some a ↔ d.type = some a.type ∧ d.isUnresolved.getD false = a.isUnresolved ∧
      d.arguments.getD [] = a.arguments := by
  cases a
  simp [AnnotationDraft.complete?]

theorem ArgumentDraft.complete?_eq_some_iff {d : ArgumentDraft} {a : ArgumentEntry} :
    d.complete? = some a ↔ d.name = some a.name ∧ d.value = some a.value := by
  obtain ⟨name, value⟩ := d
  cases a
  cases name <;> cases value <;> simp [ArgumentDraft.complete?]

theorem AnnotationEntry.ofJson?_obj_iff {a : AnnotationEntry} :
    AnnotationEntry.ofJson? (.obj es) = some a ↔
      Slot.Entries (a.slotsWith fun js => ArgumentEntry.ofElements? js = some a.arguments) es := by
  rw [Slot.entries_iff a.nodup_slotsWith]
  simp only [AnnotationEntry.slotsWith, Slot.Met, List.forall_mem_cons, List.map_cons, List.map_nil,
    and_false, false_or, ← string?_eq_some_iff, ← bool?_eq_some_iff,
    ← ArgumentEntry.ofList?_eq_some_iff, ← exists_gained_getD]
  rw [← gained_none_some, AnnotationEntry.ofJson?, Option.bind_eq_some_iff]
  simp only [AnnotationDraft.ofEntries?_eq_some_iff, AnnotationDraft.complete?_eq_some_iff]
  constructor
  · rintro ⟨d, ⟨hknown, htype, hunresolved, harguments⟩, hneeded, hdefault, hdefault'⟩
    rw [hneeded] at htype
    exact ⟨hknown, htype, ⟨_, hunresolved, hdefault⟩, ⟨_, harguments, hdefault'⟩,
      List.forall_mem_nil _⟩
  · rintro ⟨hknown, htype, ⟨_, hunresolved, hdefault⟩, ⟨_, harguments, hdefault'⟩, -⟩
    exact ⟨⟨_, _, _⟩, ⟨hknown, htype, hunresolved, harguments⟩, rfl, hdefault, hdefault'⟩

theorem AnnotationEntry.ofJson?_arr_iff {a : AnnotationEntry} :
    AnnotationEntry.ofJson? (.arr vs) = some a ↔
      Slot.Elements (a.slotsWith fun js => ArgumentEntry.ofElements? js = some a.arguments) vs := by
  obtain ⟨type, isUnresolved, as⟩ := a
  simp only [AnnotationEntry.slotsWith, ← string?_eq_some_iff, ← bool?_eq_some_iff,
    ← ArgumentEntry.ofList?_eq_some_iff]
  match vs with
  | [] => simp [AnnotationEntry.ofJson?, Slot.elements_nil_iff]
  | [t] =>
    simp only [AnnotationEntry.ofJson?, Slot.elements_cons_iff]
    cases string? t <;> simp [Slot.elements_nil_iff, eq_comm]
  | [t, u] =>
    simp only [AnnotationEntry.ofJson?, Slot.elements_cons_iff]
    cases string? t <;> cases bool? u <;> simp [Slot.elements_nil_iff, eq_comm]
  | [t, u, js] =>
    simp only [AnnotationEntry.ofJson?, Slot.elements_cons_iff]
    cases string? t <;> cases bool? u <;> cases ArgumentEntry.ofList? js <;>
      simp [Slot.elements_nil_iff]
  | _ :: _ :: _ :: _ :: _ =>
    simp [AnnotationEntry.ofJson?, Slot.elements_cons_iff, Slot.not_elements_nil_cons]

/-- An annotation is read from what may be written for it, given how its arguments are read. -/
theorem AnnotationEntry.ofJson?_iff_written {a : AnnotationEntry} :
    AnnotationEntry.ofJson? j = some a ↔
      Slot.Written (a.slotsWith fun js => ArgumentEntry.ofElements? js = some a.arguments) j := by
  cases j with
  | obj es => rw [Slot.written_obj_iff, ofJson?_obj_iff]
  | arr vs => rw [Slot.written_arr_iff, ofJson?_arr_iff]
  | null | bool | num | str =>
    simp only [AnnotationEntry.ofJson?, reduceCtorEq, false_iff]
    rintro (_ | _)

theorem ArgumentEntry.ofJson?_obj_iff {a : ArgumentEntry} :
    ArgumentEntry.ofJson? (.obj es) = some a ↔
      Slot.Entries (a.slotsWith fun j => ValueEntry.ofJson? j = some a.value) es := by
  rw [Slot.entries_iff a.nodup_slotsWith]
  simp only [ArgumentEntry.slotsWith, Slot.Met, List.forall_mem_cons, List.map_cons, List.map_nil,
    and_false, false_or, ← string?_eq_some_iff, ← gained_none_some]
  rw [ArgumentEntry.ofJson?, Option.bind_eq_some_iff]
  simp only [ArgumentDraft.ofEntries?_eq_some_iff, ArgumentDraft.complete?_eq_some_iff]
  constructor
  · rintro ⟨d, ⟨hknown, hname, hvalue⟩, hneeded, hneeded'⟩
    rw [hneeded] at hname
    rw [hneeded'] at hvalue
    exact ⟨hknown, hname, hvalue, List.forall_mem_nil _⟩
  · rintro ⟨hknown, hname, hvalue, -⟩
    exact ⟨⟨_, _⟩, ⟨hknown, hname, hvalue⟩, rfl, rfl⟩

theorem ArgumentEntry.ofJson?_arr_iff {a : ArgumentEntry} :
    ArgumentEntry.ofJson? (.arr vs) = some a ↔
      Slot.Elements (a.slotsWith fun j => ValueEntry.ofJson? j = some a.value) vs := by
  obtain ⟨name, v⟩ := a
  simp only [ArgumentEntry.slotsWith, ← string?_eq_some_iff]
  match vs with
  | [] => simp [ArgumentEntry.ofJson?, Slot.elements_nil_iff]
  | [n] => simp [ArgumentEntry.ofJson?, Slot.elements_cons_iff, Slot.elements_nil_iff]
  | [n, j] =>
    simp only [ArgumentEntry.ofJson?, Slot.elements_cons_iff]
    cases string? n <;> cases ValueEntry.ofJson? j <;> simp [Slot.elements_nil_iff]
  | _ :: _ :: _ :: _ =>
    simp [ArgumentEntry.ofJson?, Slot.elements_cons_iff, Slot.not_elements_nil_cons]

/-- An argument is read from what may be written for it, given how its value is read. -/
theorem ArgumentEntry.ofJson?_iff_written {a : ArgumentEntry} :
    ArgumentEntry.ofJson? j = some a ↔
      Slot.Written (a.slotsWith fun j => ValueEntry.ofJson? j = some a.value) j := by
  cases j with
  | obj es => rw [Slot.written_obj_iff, ofJson?_obj_iff]
  | arr vs => rw [Slot.written_arr_iff, ofJson?_arr_iff]
  | null | bool | num | str =>
    simp only [ArgumentEntry.ofJson?, reduceCtorEq, false_iff]
    rintro (_ | _)

end Records

end Document

end Nullness
