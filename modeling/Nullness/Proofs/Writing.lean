import Mathlib.Data.List.Forall2
import Nullness.Document.Read
import Nullness.Proofs.Slots
import Nullness.Proofs.Spelling

/-!
# Written documents

How entries are written, as JSON values and as texts. Symbols, annotations and arguments are
records, in which a field that has its default may be left out. Arguments with doubles are not
written at all.

- `Document.AnnotationEntry.WrittenAs`, `Document.SymbolEntry.slots`, `Document.slots`: what is
  written for annotations, symbols and documents.
- `Document.Writes`: the texts of a document.
- `Document.Slot.Entries.along`: going through the keys of a record, in whatever order.
- `Document.ValueEntry.ofJson?_of_written`: the form of an argument value tells which one it is.
-/

namespace Nullness

namespace Document

/-! ## Arguments and annotations -/

mutual

/-- What is written for the value of an argument. Integers have 64 bits with a sign. -/
def ValueEntry.WrittenAs : ValueEntry → Json → Prop
  | .scalar (.bool b), j => j = .bool b
  | .scalar (.int n), j => (leastInt ≤ n ∧ n ≤ greatestInt) ∧ j = .num (.int n)
  | .scalar (.float _), _ => False
  | .scalar (.str s), j => j = .str s
  | .constant c, j => j = .obj [("enum", .str c)]
  | .nested a, j => ∃ k, a.WrittenAs k ∧ j = .obj [("annotation", k)]
  | .list vs, j => ∃ js, ValueEntry.AllWritten vs js ∧ j = .arr js
termination_by structural v => v

/-- What is written for values, one after the other. -/
def ValueEntry.AllWritten : List ValueEntry → List Json → Prop
  | [], js => js = []
  | v :: vs, js => ∃ k ks, v.WrittenAs k ∧ ValueEntry.AllWritten vs ks ∧ js = k :: ks
termination_by structural vs => vs

/-- What is written for an annotation. -/
def AnnotationEntry.WrittenAs : AnnotationEntry → Json → Prop
  | ⟨type, isUnresolved, as⟩ =>
    Slot.Written
      [ ⟨"type", fun j => j = .str type, False⟩,
        ⟨"unresolved", fun j => j = .bool isUnresolved, isUnresolved = false⟩,
        ⟨"arguments", fun j => ∃ js, ArgumentEntry.AllWritten as js ∧ j = .arr js, as = []⟩ ]
termination_by structural a => a

/-- What is written for arguments, one after the other. -/
def ArgumentEntry.AllWritten : List ArgumentEntry → List Json → Prop
  | [], js => js = []
  | ⟨name, v⟩ :: as, js => ∃ k ks,
      Slot.Written
          [⟨"name", fun j => j = .str name, False⟩, ⟨"value", fun j => v.WrittenAs j, False⟩] k ∧
        ArgumentEntry.AllWritten as ks ∧ js = k :: ks
termination_by structural as => as

end

/-! ## Symbols and documents -/

/-- The fields of a site. Lines have 32 bits. -/
def siteSlots (site : Site) : List Slot :=
  [ ⟨"path", fun j => j = .str site.path, False⟩,
    ⟨"line", fun j => site.line ≤ Json.Reader.greatestWord ∧ j = .num (.int site.line), False⟩ ]

/-- The fields of a symbol. -/
def SymbolEntry.slots (e : SymbolEntry) : List Slot :=
  [ ⟨"id", fun j => j = .str e.id, False⟩,
    ⟨"kind", fun j => j = .str e.kind.word, False⟩,
    ⟨"name", fun j => j = .str e.name, False⟩,
    ⟨"owner", fun j => j = e.owner.elim .null .str, e.owner = none⟩,
    ⟨"local", fun j => j = .bool e.isLocal, e.isLocal = false⟩,
    ⟨"unknown", fun j => j = .bool e.isUnknown, e.isUnknown = false⟩,
    ⟨"declaration", fun j => e.site.elim (j = .null) fun site => Slot.Written (siteSlots site) j,
      e.site = none⟩,
    ⟨"annotations", fun j => ∃ js, List.Forall₂ AnnotationEntry.WrittenAs e.annotations js ∧
      j = .arr js, e.annotations = []⟩ ]

/-- The only field of a document. -/
def slots (es : List SymbolEntry) : List Slot :=
  [ ⟨"symbols", fun j => ∃ js, List.Forall₂ (fun e => Slot.Written e.slots) es js ∧ j = .arr js,
      False⟩ ]

/-- The text writes the entries, with blanks around it. Containers do not nest too deep. -/
inductive Writes (text : String) (es : List SymbolEntry) : Prop
  | mk {j : Json} {before s after : List Char} (written : Slot.Written (slots es) j)
      (depth : j.depth ≤ depthLimit) (spelling : j.Spelling s) (hbefore : Json.Blank before)
      (hafter : Json.Blank after) (htext : text.toList = before ++ (s ++ after))

/-! ## Drafts

While the fields of a record are gone through, the draft holds those whose names have been seen.
-/

section Given
variable {α : Type} {seen : List String} {k name : String}

/-- The value of a field, once its name has been seen. -/
def given (seen : List String) (name : String) (a : α) : Option α :=
  if name ∈ seen then some a else none

@[simp] theorem given_cons_self (a : α) : given (name :: seen) name a = some a :=
  if_pos List.mem_cons_self

@[simp] theorem given_cons_of_ne (h : name ≠ k) (a : α) :
    given (k :: seen) name a = given seen name a := by
  simp [given, h]

theorem given_of_mem (h : name ∈ seen) (a : α) : given seen name a = some a :=
  if_pos h

theorem given_of_notMem (h : name ∉ seen) (a : α) : given seen name a = none :=
  if_neg h

theorem getD_given {a d : α} (h : name ∉ seen → a = d) : (given seen name a).getD d = a := by
  by_cases hseen : name ∈ seen
  · rw [given, if_pos hseen, Option.getD_some]
  · rw [given_of_notMem hseen, Option.getD_none, h hseen]

theorem join_given {a : Option α} (h : name ∉ seen → a = none) : (given seen name a).join = a := by
  by_cases hseen : name ∈ seen
  · rw [given, if_pos hseen, Option.join_some]
  · rw [given_of_notMem hseen, Option.join_none, h hseen]

end Given

section Along
variable {σ : Type} {slots : List Slot} {es : List (String × Json)}
variable {P : σ → List (String × Json) → σ → Prop} (draft : List String → σ)
variable (hnil : ∀ d, P d [] d)
variable (hcons : ∀ slot ∈ slots, ∀ seen, slot.name ∉ seen → ∀ v, slot.admits v → ∀ es d,
  P (draft (slot.name :: seen)) es d → P (draft seen) ((slot.name, v) :: es) d)
include hnil hcons

/-- Entries are gone through from any draft that has none of their keys. -/
theorem Slot.along_of_fresh (hnodup : (es.map Prod.fst).Nodup)
    (hadmits : ∀ e ∈ es, ∃ slot ∈ slots, slot.name = e.1 ∧ slot.admits e.2) (seen : List String)
    (hfresh : ∀ k ∈ es.map Prod.fst, k ∉ seen) :
    P (draft seen) es (draft ((es.map Prod.fst).reverse ++ seen)) := by
  induction es generalizing seen with
  | nil => exact hnil (draft seen)
  | cons e es ih =>
      obtain ⟨⟨slot, hslot, hname, hv⟩, hes⟩ := List.forall_mem_cons.mp hadmits
      rw [List.map_cons, List.nodup_cons] at hnodup
      rw [List.map_cons, List.forall_mem_cons] at hfresh
      obtain ⟨k, v⟩ := e
      obtain rfl : slot.name = k := hname
      have hrest : ∀ k ∈ es.map Prod.fst, k ∉ slot.name :: seen := by
        intro k hk hmem
        rcases List.mem_cons.mp hmem with rfl | hmem
        · exact hnodup.1 hk
        · exact hfresh.2 k hk hmem
      rw [List.map_cons, List.reverse_cons, List.append_assoc, List.singleton_append]
      exact hcons slot hslot seen hfresh.1 v hv es _ (ih hnodup.2 hes _ hrest)

/-- Whatever takes one entry of a record at a time gets from the empty draft to one that has all
that is needed. -/
theorem Slot.Entries.along (h : Slot.Entries slots es) :
    ∃ seen, Slot.Suffice slots seen ∧ P (draft []) es (draft seen) := by
  have halong := Slot.along_of_fresh draft hnil hcons h.nodup h.admits [] fun _ _ =>
    List.not_mem_nil
  rw [List.append_nil] at halong
  refine ⟨_, fun slot hslot hmem => ?_, halong⟩
  exact h.suffice slot hslot fun hk => hmem (List.mem_reverse.mpr hk)

end Along

/-! ## Forms of written values -/

section Annotation
variable {a : AnnotationEntry} {j : Json} {seen : List String}

/-- The fields of an annotation. -/
def AnnotationEntry.slots (a : AnnotationEntry) : List Slot :=
  [ ⟨"type", fun j => j = .str a.type, False⟩,
    ⟨"unresolved", fun j => j = .bool a.isUnresolved, a.isUnresolved = false⟩,
    ⟨"arguments", fun j => ∃ js, ArgumentEntry.AllWritten a.arguments js ∧ j = .arr js,
      a.arguments = []⟩ ]

theorem AnnotationEntry.writtenAs_iff : a.WrittenAs j ↔ Slot.Written a.slots j := by
  cases a
  rw [AnnotationEntry.WrittenAs]
  rfl

/-- The fields of an annotation that have been seen. -/
def AnnotationEntry.draft (a : AnnotationEntry) (seen : List String) : AnnotationDraft :=
  ⟨given seen "type" a.type, given seen "unresolved" a.isUnresolved,
    given seen "arguments" a.arguments⟩

theorem AnnotationEntry.complete?_draft (h : Slot.Suffice a.slots seen) :
    (a.draft seen).complete? = some a := by
  simp only [AnnotationEntry.slots, Slot.suffice_cons] at h
  obtain ⟨htype, hunresolved, harguments, -⟩ := h
  cases a
  simp only [AnnotationDraft.complete?, AnnotationEntry.draft, given_of_mem (not_not.mp htype),
    getD_given hunresolved, getD_given harguments, Option.map_some]

/-- The form of an annotation tells which one it is, if this holds of its arguments. -/
theorem AnnotationEntry.ofJson?_of_arguments
    (hread : ∀ js, ArgumentEntry.AllWritten a.arguments js →
      ArgumentEntry.ofElements? js = some a.arguments)
    (h : Slot.Written a.slots j) : AnnotationEntry.ofJson? j = some a := by
  refine AnnotationEntry.ofJson?_iff_written.mpr (h.imp (.cons ?_ (.cons ?_ (.cons ?_ .nil))))
  · exact ⟨rfl, fun _ hv => hv, id⟩
  · exact ⟨rfl, fun _ hv => hv, id⟩
  · exact ⟨rfl, fun _ ⟨js, hjs, hv⟩ => ⟨js, hread js hjs, hv⟩, id⟩

end Annotation

section Argument
variable {a : ArgumentEntry} {j : Json} {seen : List String}

/-- The fields of an argument. -/
def ArgumentEntry.slots (a : ArgumentEntry) : List Slot :=
  [⟨"name", fun j => j = .str a.name, False⟩, ⟨"value", fun j => a.value.WrittenAs j, False⟩]

theorem ArgumentEntry.allWritten_iff {as : List ArgumentEntry} {js : List Json} :
    ArgumentEntry.AllWritten as js ↔ List.Forall₂ (fun a => Slot.Written a.slots) as js := by
  induction as generalizing js with
  | nil => rw [ArgumentEntry.AllWritten, List.forall₂_nil_left_iff]
  | cons a as ih =>
      cases a
      simp only [ArgumentEntry.AllWritten, List.forall₂_cons_left_iff, ih]
      rfl

/-- The fields of an argument that have been seen. -/
def ArgumentEntry.draft (a : ArgumentEntry) (seen : List String) : ArgumentDraft :=
  ⟨given seen "name" a.name, given seen "value" a.value⟩

theorem ArgumentEntry.draft_of_suffice (h : Slot.Suffice a.slots seen) :
    a.draft seen = ⟨some a.name, some a.value⟩ := by
  simp only [ArgumentEntry.slots, Slot.suffice_cons] at h
  obtain ⟨hname, hvalue, -⟩ := h
  simp only [ArgumentEntry.draft, given_of_mem (not_not.mp hname), given_of_mem (not_not.mp hvalue)]

/-- The form of an argument tells which one it is, if this holds of its value. -/
theorem ArgumentEntry.ofJson?_of_value
    (hread : ∀ k, a.value.WrittenAs k → ValueEntry.ofJson? k = some a.value)
    (h : Slot.Written a.slots j) : ArgumentEntry.ofJson? j = some a := by
  refine ArgumentEntry.ofJson?_iff_written.mpr (h.imp (.cons ?_ (.cons ?_ .nil)))
  · exact ⟨rfl, fun _ hv => hv, id⟩
  · exact ⟨rfl, hread, id⟩

end Argument

mutual

/-- **Written values.** What is written for the value of an argument stands for that value and
for no other. -/
theorem ValueEntry.ofJson?_of_written :
    ∀ {v : ValueEntry} {j : Json}, v.WrittenAs j → ValueEntry.ofJson? j = some v
  | .scalar (.bool b), _, h => by
      rw [ValueEntry.WrittenAs] at h
      subst h
      rfl
  | .scalar (.int n), _, h => by
      rw [ValueEntry.WrittenAs] at h
      obtain ⟨hn, rfl⟩ := h
      rw [ValueEntry.ofJson?, Scalar.ofNumber, if_pos hn]
  | .scalar (.float _), _, h => by
      rw [ValueEntry.WrittenAs] at h
      exact h.elim
  | .scalar (.str s), _, h => by
      rw [ValueEntry.WrittenAs] at h
      subst h
      rfl
  | .constant c, _, h => by
      rw [ValueEntry.WrittenAs] at h
      subst h
      rfl
  | .nested a, _, h => by
      rw [ValueEntry.WrittenAs] at h
      obtain ⟨k, hk, rfl⟩ := h
      have ha := AnnotationEntry.ofJson?_of_written hk
      simp [ValueEntry.ofJson?, ObjectForm.ofEntries, ObjectForm.value?, Occurrence.add,
        Occurrence.single?, ha]
  | .list vs, _, h => by
      rw [ValueEntry.WrittenAs] at h
      obtain ⟨js, hjs, rfl⟩ := h
      rw [ValueEntry.ofJson?, ValueEntry.ofElements?_of_written hjs, Option.map_some]
termination_by structural v => v

theorem ValueEntry.ofElements?_of_written :
    ∀ {vs : List ValueEntry} {js : List Json}, ValueEntry.AllWritten vs js →
      ValueEntry.ofElements? js = some vs
  | [], _, h => by
      rw [ValueEntry.AllWritten] at h
      subst h
      rfl
  | _ :: _, _, h => by
      rw [ValueEntry.AllWritten] at h
      obtain ⟨k, ks, hk, hks, rfl⟩ := h
      rw [ValueEntry.ofElements?, ValueEntry.ofJson?_of_written hk,
        ValueEntry.ofElements?_of_written hks]
termination_by structural vs => vs

theorem AnnotationEntry.ofJson?_of_written :
    ∀ {a : AnnotationEntry} {j : Json}, a.WrittenAs j → AnnotationEntry.ofJson? j = some a
  | ⟨_, _, as⟩, _, h =>
      have hread (js : List Json) (hjs : ArgumentEntry.AllWritten as js) :
          ArgumentEntry.ofElements? js = some as := ArgumentEntry.ofElements?_of_written hjs
      AnnotationEntry.ofJson?_of_arguments hread (AnnotationEntry.writtenAs_iff.mp h)
termination_by structural a => a

theorem ArgumentEntry.ofElements?_of_written :
    ∀ {as : List ArgumentEntry} {js : List Json}, ArgumentEntry.AllWritten as js →
      ArgumentEntry.ofElements? js = some as
  | [], _, h => by
      rw [ArgumentEntry.AllWritten] at h
      subst h
      rfl
  | ⟨name, v⟩ :: as, _, h => by
      rw [ArgumentEntry.AllWritten] at h
      obtain ⟨k, ks, hk, hks, rfl⟩ := h
      have ha := ArgumentEntry.ofJson?_of_value (a := ⟨name, v⟩)
        (fun _ hv => ValueEntry.ofJson?_of_written (v := v) hv) hk
      rw [ArgumentEntry.ofElements?, ha, ArgumentEntry.ofElements?_of_written hks]
termination_by structural as => as

end

end Document

end Nullness
