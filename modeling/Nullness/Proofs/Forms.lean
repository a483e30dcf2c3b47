import Mathlib.Data.List.Forall2
import Mathlib.Logic.Relation
import Nullness.Proofs.Documents
import Nullness.Proofs.Limits
import Nullness.Proofs.Printing

/-!
# Forms of argument values

Which JSON values stand for an argument value, as a grammar. Scalars stand for themselves, and a
list for the list of the values of its elements. In an object, a key counts only if it occurs
exactly once: with a string behind `enum` it is an enum constant, else with an annotation behind
`annotation` it is that. Other keys do not matter. What is read as an argument value is what the
grammar has, at any depth.

- `Document.ValueEntry.HasForm`: the grammar, as a relation between values and their forms.
- `Document.ValueEntry.ofJson?_eq_some_iff`: the grammar tells which value is read.
- `Document.StandsForValue`, `Document.ValueEntry.exists_hasForm_iff`: which values are argument
  values at all.
- `Document.takes_valueField_iff`: what is read in the place of an argument's value, and which
  texts are given up there.
-/

namespace Nullness

namespace Document

open Json.Reader

/-! ## The grammar -/

/-- The JSON values that stand for a constant. An integer that does not have 64 bits with a sign
stands for the double next to it. -/
inductive Scalar.HasForm : Scalar → Json → Prop
  | bool (b : Bool) : HasForm (.bool b) (.bool b)
  | int {n : Int} (h : leastInt ≤ n ∧ n ≤ greatestInt) : HasForm (.int n) (.num (.int n))
  | wide {n : Int} (h : ¬ (leastInt ≤ n ∧ n ≤ greatestInt)) :
      HasForm (.float (Float.ofInt n).toBits) (.num (.int n))
  | float (bits : UInt64) : HasForm (.float bits) (.num (.float bits))
  | str (s : String) : HasForm (.str s) (.str s)

mutual

/-- The JSON values that stand for the value of an argument. -/
def ValueEntry.HasForm : ValueEntry → Json → Prop
  | .scalar s, j => Scalar.HasForm s j
  | .constant c, j => ∃ es, Once "enum" (.str c) es ∧ j = .obj es
  | .nested a, j => ∃ es k, (∀ c, ¬ Once "enum" (.str c) es) ∧ Once "annotation" k es ∧
      a.HasForm k ∧ j = .obj es
  | .list vs, j => ∃ js, ValueEntry.AllHaveForm vs js ∧ j = .arr js
termination_by structural v => v

/-- The JSON values that stand for values, one after the other. -/
def ValueEntry.AllHaveForm : List ValueEntry → List Json → Prop
  | [], js => js = []
  | v :: vs, js => ∃ k ks, v.HasForm k ∧ ValueEntry.AllHaveForm vs ks ∧ js = k :: ks
termination_by structural vs => vs

/-- The JSON values that stand for an annotation. It is a record in either form. -/
def AnnotationEntry.HasForm : AnnotationEntry → Json → Prop
  | ⟨type, isUnresolved, as⟩, j =>
    Slot.Written
      (AnnotationEntry.slotsWith ⟨type, isUnresolved, as⟩ (ArgumentEntry.AllHaveForm as)) j
termination_by structural a => a

/-- The JSON values that stand for arguments, one after the other. They are records, too. -/
def ArgumentEntry.AllHaveForm : List ArgumentEntry → List Json → Prop
  | [], js => js = []
  | ⟨name, v⟩ :: as, js => ∃ k ks,
      Slot.Written (ArgumentEntry.slotsWith ⟨name, v⟩ fun j => v.HasForm j) k ∧
        ArgumentEntry.AllHaveForm as ks ∧ js = k :: ks
termination_by structural as => as

end

/-! ## The two keys that decide -/

section Deciding
variable {α : Type} {es : List (String × Json)}

/-- Occurrences of a key, one after the other. -/
def Occurrence.addAll (o : Occurrence α) (as : List α) : Occurrence α :=
  as.foldl (fun o a => Occurrence.add a o) o

theorem Occurrence.addAll_repeated (as : List α) :
    Occurrence.addAll .repeated as = .repeated := by
  induction as with
  | nil => rfl
  | cons a as ih => exact ih

/-- Only one occurrence is a single one. -/
theorem Occurrence.single?_addAll {as : List (Option α)} {a : α} :
    (Occurrence.addAll .absent as).single? = some a ↔ as = [some a] := by
  match as with
  | [] => simp [addAll, single?]
  | [b] => simp [addAll, add, single?]
  | b :: b' :: as =>
    have hrepeated : Occurrence.addAll .absent (b :: b' :: as) = .repeated := addAll_repeated as
    simp [hrepeated, single?]

theorem ObjectForm.ofEntries_eq (f : ObjectForm) (es : List (String × Json)) :
    ObjectForm.ofEntries f es =
      { constant := f.constant.addAll ((es.filter (·.1 == "enum")).map fun e => string? e.2)
        nested := f.nested.addAll
          ((es.filter (·.1 == "annotation")).map fun e => AnnotationEntry.ofJson? e.2) } := by
  induction es generalizing f with
  | nil => rfl
  | cons e es ih =>
    obtain ⟨k, v⟩ := e
    rw [ObjectForm.ofEntries]
    by_cases henum : k = "enum"
    · simp [henum, ih, Occurrence.addAll]
    · by_cases hnested : k = "annotation" <;>
        simp [henum, hnested, ih, Occurrence.addAll]

/-- The only value of a key is the one that can be read. -/
theorem map_filter_key_eq_iff {k : String} {read : Json → Option α} {a : α} :
    ((es.filter (·.1 == k)).map fun e => read e.2) = [some a] ↔
      ∃ v, Once k v es ∧ read v = some a := by
  rw [List.map_eq_singleton_iff]
  constructor
  · rintro ⟨⟨k', v⟩, hfilter, hread⟩
    have hmem : (k', v) ∈ es.filter (·.1 == k) := hfilter ▸ List.mem_cons_self
    obtain rfl : k' = k := by simpa using (List.mem_filter.mp hmem).2
    exact ⟨v, hfilter, hread⟩
  · rintro ⟨v, hfilter, hread⟩
    exact ⟨(k, v), hfilter, hread⟩

theorem ObjectForm.single?_constant {c : String} :
    (ObjectForm.ofEntries {} es).constant.single? = some c ↔ Once "enum" (.str c) es := by
  rw [ofEntries_eq, Occurrence.single?_addAll, map_filter_key_eq_iff]
  simp [string?_eq_some_iff]

theorem ObjectForm.single?_nested {a : AnnotationEntry} :
    (ObjectForm.ofEntries {} es).nested.single? = some a ↔
      ∃ k, Once "annotation" k es ∧ AnnotationEntry.ofJson? k = some a := by
  rw [ofEntries_eq, Occurrence.single?_addAll, map_filter_key_eq_iff]

end Deciding

/-! ## What is read -/

section Read
variable {j : Json} {js : List Json}

/-- An object is an enum constant if it can be, else an annotation. -/
theorem ObjectForm.value?_eq_some_iff {es : List (String × Json)} {v : ValueEntry} :
    (ObjectForm.ofEntries {} es).value? = some v ↔
      (∃ c, Once "enum" (.str c) es ∧ v = .constant c) ∨
        ((∀ c, ¬ Once "enum" (.str c) es) ∧
          ∃ k a, Once "annotation" k es ∧ AnnotationEntry.ofJson? k = some a ∧ v = .nested a) := by
  rw [ObjectForm.value?]
  cases hconstant : (ObjectForm.ofEntries {} es).constant.single? with
  | some c =>
    have hc := single?_constant.mp hconstant
    constructor
    · rintro ⟨⟩
      exact Or.inl ⟨c, hc, rfl⟩
    · rintro (⟨c', hc', rfl⟩ | ⟨hno, -⟩)
      · cases hc.unique hc'
        rfl
      · exact absurd hc (hno c)
  | none =>
    have hno : ∀ c, ¬ Once "enum" (.str c) es := by
      intro c hc
      rw [single?_constant.mpr hc] at hconstant
      cases hconstant
    rw [Option.map_eq_some_iff]
    constructor
    · rintro ⟨a, ha, rfl⟩
      obtain ⟨k, hk, hread⟩ := single?_nested.mp ha
      exact Or.inr ⟨hno, k, a, hk, hread, rfl⟩
    · rintro (⟨c, hc, -⟩ | ⟨-, k, a, hk, hread, rfl⟩)
      · exact absurd hc (hno c)
      · exact ⟨a, single?_nested.mpr ⟨k, hk, hread⟩, rfl⟩

theorem Scalar.hasForm_num_iff {s : Scalar} {n : Json.Number} :
    Scalar.HasForm s (.num n) ↔ Scalar.ofNumber n = s := by
  constructor
  · rintro (_ | h | h | _ | _)
    · exact if_pos h
    · exact if_neg h
    · rfl
  · rintro rfl
    cases n with
    | float bits => exact .float bits
    | int n =>
      rw [Scalar.ofNumber]
      split
      · next h => exact .int h
      · next h => exact .wide h

theorem ValueEntry.ofJson?_scalar_iff {s : Scalar} :
    ValueEntry.ofJson? j = some (.scalar s) ↔ Scalar.HasForm s j := by
  cases j with
  | null =>
    simp only [ofJson?, reduceCtorEq, false_iff]
    rintro (_ | _)
  | bool b =>
    simp only [ofJson?, Option.some.injEq, ValueEntry.scalar.injEq]
    constructor
    · rintro rfl
      exact .bool b
    · rintro (_ | _)
      rfl
  | num n => simp only [ofJson?, Option.some.injEq, ValueEntry.scalar.injEq, Scalar.hasForm_num_iff]
  | str w =>
    simp only [ofJson?, Option.some.injEq, ValueEntry.scalar.injEq]
    constructor
    · rintro rfl
      exact .str w
    · rintro (_ | _)
      rfl
  | arr es =>
    simp only [ofJson?, Option.map_eq_some_iff, reduceCtorEq, and_false, exists_false, false_iff]
    rintro (_ | _)
  | obj es =>
    simp only [ofJson?, ObjectForm.value?_eq_some_iff, reduceCtorEq, and_false, exists_false,
      or_false, false_iff]
    rintro (_ | _)

theorem ValueEntry.ofJson?_constant_iff {c : String} :
    ValueEntry.ofJson? j = some (.constant c) ↔ ∃ es, Once "enum" (.str c) es ∧ j = .obj es := by
  cases j with
  | obj es => simp [ofJson?, ObjectForm.value?_eq_some_iff]
  | _ => simp [ofJson?]

theorem ValueEntry.ofJson?_nested_iff {a : AnnotationEntry} :
    ValueEntry.ofJson? j = some (.nested a) ↔
      ∃ es k, (∀ c, ¬ Once "enum" (.str c) es) ∧ Once "annotation" k es ∧
        AnnotationEntry.ofJson? k = some a ∧ j = .obj es := by
  cases j with
  | obj es => simp [ofJson?, ObjectForm.value?_eq_some_iff]
  | _ => simp [ofJson?]

theorem ValueEntry.ofJson?_list_iff {vs : List ValueEntry} :
    ValueEntry.ofJson? j = some (.list vs) ↔
      ∃ js, ValueEntry.ofElements? js = some vs ∧ j = .arr js := by
  cases j with
  | obj es => simp [ofJson?, ObjectForm.value?_eq_some_iff]
  | _ => simp [ofJson?]

theorem ValueEntry.ofElements?_cons_iff {v : ValueEntry} {vs : List ValueEntry} :
    ValueEntry.ofElements? js = some (v :: vs) ↔
      ∃ k ks, ValueEntry.ofJson? k = some v ∧ ValueEntry.ofElements? ks = some vs ∧
        js = k :: ks := by
  cases js with
  | nil => simp [ofElements?]
  | cons k ks =>
    rw [ofElements?]
    cases hk : ValueEntry.ofJson? k <;> cases hks : ValueEntry.ofElements? ks <;> simp [hk, hks]

theorem ValueEntry.ofElements?_nil_iff : ValueEntry.ofElements? js = some [] ↔ js = [] := by
  cases js with
  | nil => simp [ofElements?]
  | cons k ks =>
    rw [ofElements?]
    cases ValueEntry.ofJson? k <;> cases ValueEntry.ofElements? ks <;> simp

theorem ValueEntry.exists_ofElements? {js : List Json}
    (h : ∀ j ∈ js, ∃ v, ValueEntry.ofJson? j = some v) :
    ∃ vs, ValueEntry.ofElements? js = some vs := by
  induction js with
  | nil => exact ⟨[], ofElements?_nil_iff.mpr rfl⟩
  | cons j js ih =>
    obtain ⟨⟨v, hv⟩, hjs⟩ := List.forall_mem_cons.mp h
    obtain ⟨vs, hvs⟩ := ih hjs
    exact ⟨v :: vs, ofElements?_cons_iff.mpr ⟨j, js, hv, hvs, rfl⟩⟩

theorem ArgumentEntry.ofElements?_cons_iff {a : ArgumentEntry} {as : List ArgumentEntry} :
    ArgumentEntry.ofElements? js = some (a :: as) ↔
      ∃ k ks, ArgumentEntry.ofJson? k = some a ∧ ArgumentEntry.ofElements? ks = some as ∧
        js = k :: ks := by
  cases js with
  | nil => simp [ofElements?]
  | cons k ks =>
    rw [ofElements?]
    cases hk : ArgumentEntry.ofJson? k <;> cases hks : ArgumentEntry.ofElements? ks <;>
      simp [hk, hks]

theorem ArgumentEntry.ofElements?_nil_iff : ArgumentEntry.ofElements? js = some [] ↔ js = [] := by
  cases js with
  | nil => simp [ofElements?]
  | cons k ks =>
    rw [ofElements?]
    cases ArgumentEntry.ofJson? k <;> cases ArgumentEntry.ofElements? ks <;> simp

end Read

mutual

/-- **The grammar.** A JSON value is read as the argument value that it stands for. -/
theorem ValueEntry.ofJson?_eq_some_iff :
    ∀ {v : ValueEntry} {j : Json}, ValueEntry.ofJson? j = some v ↔ v.HasForm j
  | .scalar s, _ => by rw [ValueEntry.HasForm, ValueEntry.ofJson?_scalar_iff]
  | .constant c, _ => by rw [ValueEntry.HasForm, ValueEntry.ofJson?_constant_iff]
  | .nested a, _ => by
      have ha (k : Json) : AnnotationEntry.ofJson? k = some a ↔ a.HasForm k :=
        AnnotationEntry.ofJson?_eq_some_iff
      simp only [ValueEntry.HasForm, ValueEntry.ofJson?_nested_iff, ha]
  | .list vs, _ => by
      have hvs (js : List Json) : ValueEntry.ofElements? js = some vs ↔
          ValueEntry.AllHaveForm vs js := ValueEntry.ofElements?_eq_some_iff
      simp only [ValueEntry.HasForm, ValueEntry.ofJson?_list_iff, hvs]
termination_by structural v => v

theorem ValueEntry.ofElements?_eq_some_iff :
    ∀ {vs : List ValueEntry} {js : List Json},
      ValueEntry.ofElements? js = some vs ↔ ValueEntry.AllHaveForm vs js
  | [], _ => by rw [ValueEntry.AllHaveForm, ValueEntry.ofElements?_nil_iff]
  | v :: vs, _ => by
      have hv (k : Json) : ValueEntry.ofJson? k = some v ↔ v.HasForm k :=
        ValueEntry.ofJson?_eq_some_iff
      have hvs (ks : List Json) : ValueEntry.ofElements? ks = some vs ↔
          ValueEntry.AllHaveForm vs ks := ValueEntry.ofElements?_eq_some_iff
      simp only [ValueEntry.AllHaveForm, ValueEntry.ofElements?_cons_iff, hv, hvs]
termination_by structural vs => vs

theorem AnnotationEntry.ofJson?_eq_some_iff :
    ∀ {a : AnnotationEntry} {j : Json}, AnnotationEntry.ofJson? j = some a ↔ a.HasForm j
  | ⟨_, _, as⟩, _ => by
      have has (js : List Json) : ArgumentEntry.ofElements? js = some as ↔
          ArgumentEntry.AllHaveForm as js := ArgumentEntry.ofElements?_eq_some_iff
      simp only [AnnotationEntry.HasForm, AnnotationEntry.ofJson?_iff_written, has]
termination_by structural a => a

theorem ArgumentEntry.ofElements?_eq_some_iff :
    ∀ {as : List ArgumentEntry} {js : List Json},
      ArgumentEntry.ofElements? js = some as ↔ ArgumentEntry.AllHaveForm as js
  | [], _ => by rw [ArgumentEntry.AllHaveForm, ArgumentEntry.ofElements?_nil_iff]
  | ⟨_, v⟩ :: as, _ => by
      have hv (k : Json) : ValueEntry.ofJson? k = some v ↔ v.HasForm k :=
        ValueEntry.ofJson?_eq_some_iff
      have has (ks : List Json) : ArgumentEntry.ofElements? ks = some as ↔
          ArgumentEntry.AllHaveForm as ks := ArgumentEntry.ofElements?_eq_some_iff
      simp only [ArgumentEntry.AllHaveForm, ArgumentEntry.ofElements?_cons_iff,
        ArgumentEntry.ofJson?_iff_written, hv, has]
termination_by structural as => as

end

theorem ValueEntry.allHaveForm_iff {vs : List ValueEntry} {js : List Json} :
    ValueEntry.AllHaveForm vs js ↔ List.Forall₂ ValueEntry.HasForm vs js := by
  induction vs generalizing js with
  | nil => rw [ValueEntry.AllHaveForm, List.forall₂_nil_left_iff]
  | cons v vs ih => simp only [ValueEntry.AllHaveForm, List.forall₂_cons_left_iff, ih]

theorem ArgumentEntry.allHaveForm_iff {as : List ArgumentEntry} {js : List Json} :
    ArgumentEntry.AllHaveForm as js ↔
      List.Forall₂ (fun a => Slot.Written (a.slotsWith fun j => a.value.HasForm j)) as js := by
  induction as generalizing js with
  | nil => rw [ArgumentEntry.AllHaveForm, List.forall₂_nil_left_iff]
  | cons a as ih =>
    cases a
    simp only [ArgumentEntry.AllHaveForm, List.forall₂_cons_left_iff, ih]

/-! ## Values in values -/

/-- `v` is the value of a field, in an object or at the field's place in a list. -/
inductive FieldValue (name : String) (i : Nat) (v : Json) : Json → Prop
  | key {es : List (String × Json)} (h : (name, v) ∈ es) : FieldValue name i v (.obj es)
  | place {vs : List Json} (h : vs[i]? = some v) : FieldValue name i v (.arr vs)

/-- `x` stands in `j` in the place of a value: it is an element of a list, or the value of an
argument of the annotation that is nested there. -/
inductive Placed (x : Json) : Json → Prop
  | element {es : List Json} (h : x ∈ es) : Placed x (.arr es)
  | argument {es : List (String × Json)} {k argument : Json} {arguments : List Json}
      (hconstant : ∀ c, ¬ Once "enum" (.str c) es) (hnested : Once "annotation" k es)
      (harguments : FieldValue "arguments" 2 (.arr arguments) k) (hmem : argument ∈ arguments)
      (hvalue : FieldValue "value" 1 x argument) : Placed x (.obj es)

theorem Slot.Elements.admits_of_getElem? {slot : Slot} {slots : List Slot} {vs : List Json}
    {v : Json} {i : Nat} (h : Slot.Elements slots vs) (hslot : slots[i]? = some slot)
    (hv : vs[i]? = some v) : slot.admits v := by
  induction h generalizing i with
  | nil => simp at hv
  | cons hfirst _ ih =>
    cases i with
    | zero =>
      cases hslot
      cases hv
      exact hfirst
    | succ i => exact ih hslot hv

/-- What stands for a field may be written for it. -/
theorem FieldValue.admits {slot : Slot} {slots : List Slot} {name : String} {j v : Json} {i : Nat}
    (hv : FieldValue name i v j) (h : Slot.Written slots j) (hnodup : (slots.map Slot.name).Nodup)
    (hslot : slots[i]? = some slot) (hname : slot.name = name) : slot.admits v := by
  cases hv with
  | key hmem =>
    obtain ⟨slot', hslot', hname', hadmits⟩ := (Slot.written_obj_iff.mp h).admits _ hmem
    have hslot := List.mem_of_getElem? hslot
    obtain rfl := List.inj_on_of_nodup_map hnodup hslot' hslot (hname'.trans hname.symm)
    exact hadmits
  | place hv => exact (Slot.written_arr_iff.mp h).admits_of_getElem? hslot hv

/-- What stands in an argument value in the place of a value is one. -/
theorem ValueEntry.HasForm.placed {v : ValueEntry} {j x : Json} (h : v.HasForm j)
    (hx : Placed x j) : ∃ w : ValueEntry, w.HasForm x := by
  cases v with
  | scalar s =>
    rw [HasForm] at h
    cases h <;> cases hx
  | constant c =>
    rw [HasForm] at h
    obtain ⟨es, hc, rfl⟩ := h
    obtain _ | ⟨hno, -⟩ := hx
    exact absurd hc (hno c)
  | list vs =>
    rw [HasForm] at h
    obtain ⟨js, hvs, rfl⟩ := h
    obtain hmem | _ := hx
    obtain ⟨v, -, hv⟩ := exists_of_forall₂ (allHaveForm_iff.mp hvs).flip hmem
    exact ⟨v, hv⟩
  | nested a =>
    rw [HasForm] at h
    obtain ⟨es, k, -, hk, ha, rfl⟩ := h
    obtain _ | ⟨-, hnested, harguments, hmem, hvalue⟩ := hx
    obtain rfl := hk.unique hnested
    obtain ⟨type, isUnresolved, as⟩ := a
    rw [AnnotationEntry.HasForm] at ha
    obtain ⟨js, has, ⟨⟩⟩ := harguments.admits ha (AnnotationEntry.nodup_slotsWith _) rfl rfl
    obtain ⟨a, -, ha⟩ := exists_of_forall₂ (ArgumentEntry.allHaveForm_iff.mp has).flip hmem
    exact ⟨a.value, hvalue.admits ha a.nodup_slotsWith rfl rfl⟩

theorem ValueEntry.not_hasForm_null (v : ValueEntry) : ¬ v.HasForm .null := by
  intro h
  cases ValueEntry.ofJson?_eq_some_iff.mpr h

/-- Nothing is no argument value, and none within one at any depth. -/
theorem ValueEntry.HasForm.no_null {v : ValueEntry} {j : Json} (h : v.HasForm j) :
    ¬ Relation.ReflTransGen Placed .null j := by
  intro hnull
  induction hnull generalizing v with
  | refl => exact v.not_hasForm_null h
  | tail _ hx ih =>
    obtain ⟨w, hw⟩ := h.placed hx
    exact ih hw

/-- A JSON value is such that it stands for an argument value: it is a constant, a list of what
stands for argument values, or an object with one of the two keys that decide. -/
def StandsForValue : Json → Prop
  | .null => False
  | .bool _ | .num _ | .str _ => True
  | .arr es => ∀ e ∈ es, ∃ v : ValueEntry, v.HasForm e
  | .obj es => (∃ c, Once "enum" (.str c) es) ∨
      ∃ k, Once "annotation" k es ∧ ∃ a : AnnotationEntry, a.HasForm k

/-- Which JSON values are argument values, whatever they stand for. -/
theorem ValueEntry.exists_hasForm_iff {j : Json} :
    (∃ v : ValueEntry, v.HasForm j) ↔ StandsForValue j := by
  constructor
  · rintro ⟨v, hv⟩
    cases j with
    | null => exact v.not_hasForm_null hv
    | bool | num | str => trivial
    | arr es => exact fun e he => hv.placed (.element he)
    | obj es =>
      rcases ObjectForm.value?_eq_some_iff.mp (ofJson?_eq_some_iff.mpr hv) with
        ⟨c, hc, -⟩ | ⟨-, k, a, hk, ha, -⟩
      · exact Or.inl ⟨c, hc⟩
      · exact Or.inr ⟨k, hk, a, AnnotationEntry.ofJson?_eq_some_iff.mp ha⟩
  · intro h
    unfold StandsForValue at h
    simp only [← ofJson?_eq_some_iff] at h ⊢
    cases j with
    | null => exact h.elim
    | bool b => exact ⟨_, ofJson?_scalar_iff.mpr (.bool b)⟩
    | num n => exact ⟨_, ofJson?_scalar_iff.mpr (Scalar.hasForm_num_iff.mpr rfl)⟩
    | str s => exact ⟨_, ofJson?_scalar_iff.mpr (.str s)⟩
    | arr es =>
      obtain ⟨vs, hvs⟩ := exists_ofElements? h
      exact ⟨.list vs, ofJson?_list_iff.mpr ⟨es, hvs, rfl⟩⟩
    | obj es =>
      by_cases hconstant : ∃ c, Once "enum" (.str c) es
      · obtain ⟨c, hc⟩ := hconstant
        exact ⟨.constant c, ofJson?_constant_iff.mpr ⟨es, hc, rfl⟩⟩
      · obtain ⟨k, hk, a, ha⟩ := h.resolve_left hconstant
        have ha := AnnotationEntry.ofJson?_eq_some_iff.mpr ha
        exact ⟨.nested a,
          ofJson?_nested_iff.mpr ⟨es, k, fun c hc => hconstant ⟨c, hc⟩, hk, ha, rfl⟩⟩

/-! ## Reading arguments -/

section Field
variable {levels : Nat} {b s t : List Char} {j : Json} {d : ArgumentDraft}

theorem takes_valueField_some {v : ValueEntry} (h : (tree levels).Takes s j t)
    (hv : ValueEntry.ofJson? j = some v) :
    (valueField.read levels d).Takes s (.ok { d with value := some v }) t := by
  refine h.bind ?_
  rw [hv]
  exact takes_pure _ t

theorem takes_valueField_none (h : (tree levels).Takes s j t)
    (hnone : ValueEntry.ofJson? j = none) :
    (valueField.read levels d).Takes s (.error ⟨.noForm, []⟩) t := by
  refine h.bind ?_
  rw [hnone]
  exact takes_pure _ t

/-- A value that is taken settles the field, one way or the other. -/
theorem not_exceeds_valueField (h : (tree levels).Takes s j t) :
    ¬ (valueField.read levels d).Exceeds s := by
  intro hexceeds
  cases hform : ValueEntry.ofJson? j with
  | none => exact hexceeds.not_takes (takes_valueField_none h hform)
  | some v => exact hexceeds.not_takes (takes_valueField_some h hform)

/-- Behind a value that is taken, the field is what the value stands for. -/
theorem takes_valueField_ok_iff (h : (tree levels).Takes s j t) {v : ValueEntry} :
    (valueField.read levels d).Takes s (.ok { d with value := some v }) t ↔ v.HasForm j := by
  rw [← ValueEntry.ofJson?_eq_some_iff]
  constructor
  · intro hread
    cases hform : ValueEntry.ofJson? j with
    | none => cases (hread.unique (takes_valueField_none h hform)).1
    | some w =>
      cases (hread.unique (takes_valueField_some h hform)).1
      rfl
  · exact takes_valueField_some h

theorem takes_valueField_error_iff (h : (tree levels).Takes s j t) :
    (valueField.read levels d).Takes s (.error ⟨.noForm, []⟩) t ↔
      ∀ v : ValueEntry, ¬ v.HasForm j := by
  simp only [← ValueEntry.ofJson?_eq_some_iff]
  constructor
  · intro hread v hv
    cases (hread.unique (takes_valueField_some h hv)).1
  · exact fun hno => takes_valueField_none h (Option.eq_none_iff_forall_ne_some.mpr hno)

section Limits
variable (hb : Json.Blank b) (hs : j.RoughSpelling s) (ht : Breaks t)
include hb hs ht

theorem exceeds_valueField_iff :
    (valueField.read levels d).Exceeds (b ++ (s ++ t)) ↔ ¬ WithinLimits levels j s := by
  rcases tree_settles levels j hb hs ht with hwithin | hexceeds
  · have htree := reads_tree hwithin.depth hb hwithin.spelling ht
    exact iff_of_false (not_exceeds_valueField htree) (not_not.mpr hwithin)
  · refine iff_of_true hexceeds.bind fun hwithin => ?_
    exact hexceeds.not_takes (reads_tree hwithin.depth hb hwithin.spelling ht)

/-- What is read of a value that is taken is read of a text within the limits. -/
theorem takes_valueField_iff_within {x : Except Complaint ArgumentDraft} {P : Prop}
    (h : (tree levels).Takes (b ++ (s ++ t)) j t →
      ((valueField.read levels d).Takes (b ++ (s ++ t)) x t ↔ P)) :
    (valueField.read levels d).Takes (b ++ (s ++ t)) x t ↔ P ∧ WithinLimits levels j s := by
  by_cases hwithin : WithinLimits levels j s
  · rw [h (reads_tree hwithin.depth hb hwithin.spelling ht), and_iff_left hwithin]
  · have hexceeds := (exceeds_valueField_iff hb hs ht (d := d)).mpr hwithin
    exact iff_of_false hexceeds.not_takes fun h => hwithin h.2

theorem takes_valueField_ok_iff_within (v : ValueEntry) :
    (valueField.read levels d).Takes (b ++ (s ++ t)) (.ok { d with value := some v }) t ↔
      v.HasForm j ∧ WithinLimits levels j s :=
  takes_valueField_iff_within hb hs ht fun htree => takes_valueField_ok_iff htree

end Limits

/-- Which numbers are read as integers: those written without fraction and exponent that have 64
bits with a sign, except for minus zero. -/
theorem takes_valueField_int_iff (hb : Json.Blank b) (ht : Breaks t) (l : Json.Numeral) (i : Int) :
    (valueField.read levels d).Takes (b ++ (l.text ++ t))
        (.ok { d with value := some (.scalar (.int i)) }) t ↔
      (l.fraction = none ∧ l.exponent = none ∧ l.integer = i) ∧
        (leastInt ≤ i ∧ i ≤ greatestInt) ∧ ¬ (l.negative = true ∧ i = 0) := by
  have hint : (l.fraction = none ∧ l.exponent = none ∧ l.integer = i) →
      (leastInt ≤ i ∧ i ≤ greatestInt) → ¬ (l.negative = true ∧ i = 0) → l.IsInteger := by
    rintro ⟨hfraction, hexponent, rfl⟩ ⟨hleast, hgreatest⟩ hzero
    refine ⟨hfraction, hexponent, ⟨hleast, Int.le_trans hgreatest (by decide)⟩, ?_⟩
    exact fun hnegative hnone => hzero ⟨hnegative, hnone⟩
  rcases l.denotes_or_outOfRange with ⟨n, hn⟩ | hout
  · have htree := reads_tree (j := .num n) (Nat.zero_le levels) hb (.num hn) ht
    rw [takes_valueField_ok_iff htree, ValueEntry.HasForm]
    constructor
    · intro hform
      cases hform with
      | int hi =>
        cases hn with
        | integer h => exact ⟨⟨h.fraction, h.exponent, rfl⟩, hi, fun hz => h.nonzero hz.1 hz.2⟩
    · rintro ⟨hbare, hi, hzero⟩
      cases hn with
      | integer h =>
        obtain ⟨-, -, rfl⟩ := hbare
        exact .int hi
      | double h _ => exact absurd (hint hbare hi hzero) h
  · refine iff_of_false ?_ fun ⟨hbare, hi, hzero⟩ => hout.1 (hint hbare hi hzero)
    exact (exceeds_tree_num hout hb ht).bind.not_takes

/-- **Argument values.** In the place of an argument's value stands a text that spells a JSON
value, between blanks and what cannot go on with a number. What is read is the value that it
stands for; if it stands for none, that is the complaint. But a text is given up if a number in
it is out of the range of doubles, or if its containers nest deeper than the reader allows.
Integers are what is written without fraction and exponent and has 64 bits with a sign; minus
zero is a double. A JSON value stands for an argument value if it is a boolean, a number or a
string, a list of such values, or an object with exactly one key `enum` with a string or exactly
one key `annotation` with an annotation; and then `null` is no value within it, at any depth. -/
theorem takes_valueField_iff (hb : Json.Blank b) (hs : j.RoughSpelling s) (ht : Breaks t)
    (d : ArgumentDraft) :
    (∀ v : ValueEntry, (valueField.read levels d).Takes (b ++ (s ++ t))
        (.ok { d with value := some v }) t ↔ v.HasForm j ∧ WithinLimits levels j s) ∧
    ((valueField.read levels d).Takes (b ++ (s ++ t)) (.error ⟨.noForm, []⟩) t ↔
      (∀ v : ValueEntry, ¬ v.HasForm j) ∧ WithinLimits levels j s) ∧
    ((valueField.read levels d).Exceeds (b ++ (s ++ t)) ↔ ¬ WithinLimits levels j s) ∧
    (∀ (l : Json.Numeral) (i : Int), (valueField.read levels d).Takes (b ++ (l.text ++ t))
        (.ok { d with value := some (.scalar (.int i)) }) t ↔
      (l.fraction = none ∧ l.exponent = none ∧ l.integer = i) ∧
        (leastInt ≤ i ∧ i ≤ greatestInt) ∧ ¬ (l.negative = true ∧ i = 0)) ∧
    ((∃ v : ValueEntry, v.HasForm j) ↔ StandsForValue j) ∧
    (Relation.ReflTransGen Placed .null j → ∀ v : ValueEntry, ¬ v.HasForm j) := by
  refine ⟨takes_valueField_ok_iff_within hb hs ht,
    takes_valueField_iff_within hb hs ht fun htree => takes_valueField_error_iff htree,
    exceeds_valueField_iff hb hs ht, takes_valueField_int_iff hb ht,
    ValueEntry.exists_hasForm_iff, fun hplaced v hv => hv.no_null hplaced⟩

/-- The number `-0`. -/
def minusZero : Json.Numeral where
  negative := true
  whole := ['0']
  fraction := none
  exponent := none
  whole_ne := by decide
  whole_isDigit := List.forall_mem_singleton.mpr rfl
  whole_zero := fun _ => rfl
  fraction_ne := Json.Numeral.ne_nil_of_mem_none
  fraction_isDigit := Json.Numeral.isDigit_of_mem_none

/-- The number `1e999`. -/
def beyondDoubles : Json.Numeral where
  negative := false
  whole := ['1']
  fraction := none
  exponent := some
    { mark := 'e'
      sign := []
      digits := ['9', '9', '9']
      mark_mem := by decide
      sign_mem := by decide
      digits_ne := by decide
      digits_isDigit := fun c hc => List.eq_of_mem_replicate (n := 3) hc ▸ rfl }
  whole_ne := by decide
  whole_isDigit := List.forall_mem_singleton.mpr rfl
  whole_zero := by decide
  fraction_ne := Json.Numeral.ne_nil_of_mem_none
  fraction_isDigit := Json.Numeral.isDigit_of_mem_none

theorem outOfRange_beyondDoubles : beyondDoubles.OutOfRange := by
  refine ⟨fun h => ?_, 0, rfl⟩
  cases h.exponent

/-- Lists, one within the other, with an empty one in the middle. -/
def nestedLists : Nat → Json
  | 0 => .arr []
  | n + 1 => .arr [nestedLists n]

theorem printable_nestedLists (n : Nat) : (nestedLists n).Printable := by
  induction n with
  | zero => exact .arr nofun
  | succ n ih => exact .arr (List.forall_mem_singleton.mpr ih)

theorem depth_nestedLists (n : Nat) : (nestedLists n).depth = n + 1 := by
  induction n with
  | zero => rfl
  | succ n ih => rw [nestedLists, Json.depth, Json.depthOfElements, Json.depthOfElements, ih,
      Nat.max_zero]

/-- Seven containers are open around an argument's value, so that 120 more may be. Minus zero is
not read as an integer there. A number beyond all doubles is given up, and so are 121 lists, one
within the other, though 120 are read. -/
theorem valueField_at_limits :
    (∀ n : Int, ¬ (valueField.read (depthLimit - 7) {}).Takes ['-', '0', '}']
      (.ok { value := some (.scalar (.int n)) }) ['}']) ∧
    (valueField.read (depthLimit - 7) {}).Exceeds ['1', 'e', '9', '9', '9', '}'] ∧
    (valueField.read (depthLimit - 7) {}).Exceeds ((nestedLists 120).print 0 ++ ['}']) ∧
    ∃ v, (valueField.read (depthLimit - 7) {}).Takes ((nestedLists 119).print 0 ++ ['}'])
      (.ok { value := some v }) ['}'] := by
  have hends : Breaks ['}'] := breaks_cons (by decide) []
  have hspell (n : Nat) := (printable_nestedLists n).spelling 0
  refine ⟨fun n => ?_, ?_, ?_, ?_⟩
  · intro hread
    obtain ⟨⟨-, -, rfl⟩, -, hnot⟩ :=
      (takes_valueField_int_iff (b := []) (d := {}) nofun hends minusZero n).mp hread
    exact hnot ⟨rfl, rfl⟩
  · have hnumber : (tree (depthLimit - 7)).Exceeds ([] ++ (beyondDoubles.text ++ ['}'])) :=
      exceeds_tree_num outOfRange_beyondDoubles nofun hends
    exact hnumber.bind
  · refine (exceeds_valueField_iff (b := []) nofun (hspell 120).rough hends).mpr fun hwithin => ?_
    have hdepth := hwithin.depth
    rw [depth_nestedLists] at hdepth
    exact absurd hdepth (by decide)
  · have hform : ∀ n, ∃ v : ValueEntry, v.HasForm (nestedLists n) := by
      intro n
      induction n with
      | zero => exact ValueEntry.exists_hasForm_iff.mpr nofun
      | succ n ih => exact ValueEntry.exists_hasForm_iff.mpr (List.forall_mem_singleton.mpr ih)
    obtain ⟨v, hv⟩ := hform 119
    have hwithin : WithinLimits (depthLimit - 7) (nestedLists 119) _ :=
      ⟨hspell 119, by rw [depth_nestedLists]; decide⟩
    exact ⟨v, (takes_valueField_ok_iff_within (b := []) nofun (hspell 119).rough hends v).mpr
      ⟨hv, hwithin⟩⟩

/-- Both keys that decide are there, but only one decides. Within, the other one does. -/
def overlapping : Json :=
  .obj
    [ ("enum", .num (.int 7)),
      ("annotation", .arr [.str "p.A", .bool false, .arr
        [ .arr [.str "when", .arr
            [ .bool true, .num (.int 9223372036854775808),
              .obj [("annotation", .null), ("enum", .str "p.B.X")] ]] ]]),
      ("more", .null) ]

/-- What it stands for. One of the integers is too great. -/
def overlappingValue : ValueEntry :=
  .nested ⟨"p.A", false,
    [ ⟨"when", .list
        [ .scalar (.bool true), .scalar (.float (Float.ofInt 9223372036854775808).toBits),
          .constant "p.B.X" ]⟩ ]⟩

/-- An element of a list within an argument of an annotation is `null`. -/
def deepNull : Json :=
  .obj
    [ ("annotation", .obj
        [ ("arguments", .arr [.obj [("value", .arr [.null]), ("name", .str "n")]]),
          ("type", .str "p.A") ]) ]

theorem printable_overlapping : overlapping.Printable := by
  have hconstant : (Json.obj [("annotation", .null), ("enum", .str "p.B.X")]).Printable :=
    .obj (List.forall_mem_cons.mpr ⟨.null, List.forall_mem_singleton.mpr (.str _)⟩)
  have hlist : (Json.arr [.bool true, .num (.int 9223372036854775808), _]).Printable :=
    .arr (List.forall_mem_cons.mpr ⟨.bool _, List.forall_mem_cons.mpr
      ⟨.int ⟨by decide, by decide⟩, List.forall_mem_singleton.mpr hconstant⟩⟩)
  have hargument : (Json.arr [.str "when", _]).Printable :=
    .arr (List.forall_mem_cons.mpr ⟨.str _, List.forall_mem_singleton.mpr hlist⟩)
  have hnested : (Json.arr [.str "p.A", .bool false, .arr [_]]).Printable :=
    .arr (List.forall_mem_cons.mpr ⟨.str _, List.forall_mem_cons.mpr ⟨.bool _,
      List.forall_mem_singleton.mpr (.arr (List.forall_mem_singleton.mpr hargument))⟩⟩)
  exact .obj (List.forall_mem_cons.mpr ⟨.int ⟨by decide, by decide⟩,
    List.forall_mem_cons.mpr ⟨hnested, List.forall_mem_singleton.mpr .null⟩⟩)

theorem printable_deepNull : deepNull.Printable := by
  have hlist : (Json.arr [.null]).Printable := .arr (List.forall_mem_singleton.mpr .null)
  have hargument : (Json.obj [("value", _), ("name", .str "n")]).Printable :=
    .obj (List.forall_mem_cons.mpr ⟨hlist, List.forall_mem_singleton.mpr (.str _)⟩)
  have hnested : (Json.obj [("arguments", .arr [_]), ("type", .str "p.A")]).Printable :=
    .obj (List.forall_mem_cons.mpr ⟨.arr (List.forall_mem_singleton.mpr hargument),
      List.forall_mem_singleton.mpr (.str _)⟩)
  exact .obj (List.forall_mem_singleton.mpr hnested)

theorem placed_deepNull : Relation.ReflTransGen Placed .null deepNull := by
  have hlist : Placed .null (.arr [.null]) := .element List.mem_cons_self
  have hobject : Placed (.arr [.null]) deepNull := by
    refine .argument (fun c hc => ?_) (show Once "annotation" _ _ from rfl)
      (.key List.mem_cons_self) List.mem_cons_self (.key List.mem_cons_self)
    cases hc
  exact .tail (.single hlist) hobject

/-- One of the two values is read, the other one is not. -/
theorem takes_valueField_overlapping :
    (valueField.read depthLimit {}).Takes (overlapping.print 0 ++ ['}'])
        (.ok { value := some overlappingValue }) ['}'] ∧
      (valueField.read depthLimit {}).Takes (deepNull.print 0 ++ ['}'])
        (.error ⟨.noForm, []⟩) ['}'] := by
  have hends : Breaks ['}'] := breaks_cons (by decide) []
  have hform : overlappingValue.HasForm overlapping := ValueEntry.ofJson?_eq_some_iff.mp rfl
  have hspell := printable_overlapping.spelling 0
  have hspellNull := printable_deepNull.spelling 0
  have hnone : ∀ v : ValueEntry, ¬ v.HasForm deepNull := fun v hv => hv.no_null placed_deepNull
  constructor
  · have hwithin : WithinLimits depthLimit overlapping _ := ⟨hspell, by decide⟩
    exact ((takes_valueField_iff (b := []) nofun hspell.rough hends {}).1 overlappingValue).mpr
      ⟨hform, hwithin⟩
  · have hwithin : WithinLimits depthLimit deepNull _ := ⟨hspellNull, by decide⟩
    exact (takes_valueField_iff (b := []) nofun hspellNull.rough hends {}).2.1.mpr ⟨hnone, hwithin⟩

end Field

end Document

end Nullness
