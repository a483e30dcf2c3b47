import Nullness.Proofs.Trees
import Nullness.Proofs.Writing

/-!
# Reading records

Both forms of a record are read as the same record: what is read of its fields does not depend on
their order, and those that are left out have their defaults.

- `Json.Reader.ReadsNested`: readers of values that contain others.
- `Document.Fills`: a field that fills a draft.
- `Document.Record.Restores.reads`: a record is read in both of its forms.
-/

namespace Nullness

namespace Json

namespace Reader

variable {α β σ : Type}

/-! ## Values of an expected form -/

/-- `r` takes `j` for `a`, if it may open as many containers as stand in `j` one within the
other. -/
def ReadsNested (r : Nat → Reader α) (j : Json) (a : α) : Prop :=
  ∀ ⦃levels : Nat⦄, j.depth ≤ levels → (r levels).Reads j a

theorem Reads.nested {r : Reader α} {j : Json} {a : α} (h : r.Reads j a) :
    ReadsNested (fun _ => r) j a :=
  fun _ _ => h

theorem reads_string (w : String) : string.Reads (.str w) w := by
  intro b s t hb hs _
  have hsolid := solid_spelling hs t
  cases hs with
  | str h =>
      obtain ⟨hchars⟩ := h
      rw [List.cons_append, List.append_assoc] at hsolid ⊢
      exact takes_blanks_bind hb hsolid ((takes_eat '"' _).bind (takes_literalRest hchars t))

theorem reads_boolean (v : Bool) : boolean.Reads (.bool v) v := by
  intro b s t hb hs _
  refine takes_blanks_bind hb (solid_spelling hs t) (takes_peek_bind ?_)
  cases hs with
  | true => exact takes_advance_bind ((takes_word _ t).bind (takes_pure true t))
  | false => exact takes_advance_bind ((takes_word _ t).bind (takes_pure false t))

theorem reads_word32 {n : Nat} (hn : n ≤ greatestWord) : word32.Reads (.num (.int n)) n := by
  intro b s t hb hs ht
  refine takes_blanks_bind hb (solid_spelling hs t) (takes_peek_bind ?_)
  cases hs with
  | num h =>
      obtain ⟨c, u, hcu, hc⟩ := exists_begins (.num h)
      have hc : c = '-' ∨ c.isDigit = true := hc
      have hnumber := takes_number h ht
      rw [hcu, List.cons_append] at hnumber ⊢
      rw [List.head?_cons]
      dsimp only
      rw [if_pos hc]
      refine hnumber.bind ?_
      show (if n ≤ greatestWord then pure n else _ : Reader Nat).Takes t n t
      rw [if_pos hn]
      exact takes_pure n t

/-- Only the word for nothing begins with this letter. -/
theorem Begins.eq_null {j : Json} (h : Begins j 'n') : j = .null := by
  cases j with
  | null => rfl
  | bool v => cases v <;> simp [Begins] at h
  | _ => simp [Begins] at h

theorem reads_optional_null (r : Reader α) : (optional r).Reads .null none := by
  intro b s t hb hs _
  refine takes_blanks_bind hb (solid_spelling hs t) ?_
  cases hs with
  | null => exact (takes_eat 'n' _).bind ((takes_word _ t).bind (takes_pure none t))

theorem reads_optional {r : Reader α} {j : Json} {a : α} (h : r.Reads j a) (hj : j ≠ .null) :
    (optional r).Reads j (some a) := by
  intro b s t hb hs ht
  refine takes_blanks_bind hb (solid_spelling hs t) ?_
  have hne : (s ++ t).head? ≠ some 'n' := by
    obtain ⟨c, u, rfl, hc⟩ := exists_begins hs
    rintro ⟨⟩
    exact hj hc.eq_null
  exact (takes_eat_of_ne hne).bind (h (b := []) nofun hs ht).map

theorem reads_list {element : Nat → Reader α} {js : List Json} {as : List α}
    (h : List.Forall₂ (fun a j => ReadsNested element j a) as js) :
    ReadsNested (list element) (.arr js) as := by
  intro levels hlevels b s t hb hs _
  have hsolid := solid_spelling hs t
  cases levels with
  | zero => cases hlevels
  | succ levels =>
      have hdepth := depthOfElements_le_iff.mp (Nat.le_of_succ_le_succ hlevels)
      have hread : List.Forall₂ (fun e a => ∀ _ : Nat, (element levels).Reads e a) js as :=
        ((List.forall₂_and_left js as).mpr ⟨hdepth, h.flip⟩).imp fun _ _ he _ => he.2 he.1
      cases hs with
      | arr helements =>
          refine takes_blanks_bind hb hsolid (takes_peek_bind (takes_advance_bind ?_))
          exact (takes_elements hread helements t).bind
            ((takes_close (b := []) nofun t).bind (takes_pure as t))

end Reader

end Json

namespace Document

open Json (Reader Blank)
open Json.Reader

variable {σ α τ : Type} {draft : List String → σ} {slot : Slot} {slots : List Slot}

/-! ## Fields -/

/-- The field takes what is written for it, and has been seen from then on. -/
structure Fills (draft : List String → σ) (slot : Slot) (f : Field σ) : Prop where
  name : f.name = slot.name
  isSet : ∀ seen, slot.name ∉ seen → f.isSet (draft seen) = false
  reads : ∀ seen v, slot.admits v →
    ReadsNested (fun levels => f.read levels (draft seen)) v (.ok (draft (slot.name :: seen)))

theorem Fills.of {get : σ → Option τ} {set : σ → τ → σ} {r : Nat → Reader τ} {a : τ}
    (hget : ∀ seen, get (draft seen) = given seen slot.name a)
    (hset : ∀ seen, set (draft seen) a = draft (slot.name :: seen))
    (hread : ∀ v, slot.admits v → ReadsNested r v a) :
    Fills draft slot (.of slot.name get set r) where
  name := rfl
  isSet seen hfresh := by
    show (get (draft seen)).isSome = false
    rw [hget, given_of_notMem hfresh, Option.isSome_none]
  reads seen v hv levels hlevels b s t hb hs ht := by
    refine (hread v hv hlevels hb hs ht).bind ?_
    rw [hset]
    exact takes_pure _ t

theorem exists_fills {fs : List (Field σ)} (hfills : List.Forall₂ (Fills draft) slots fs)
    (hnodup : (slots.map Slot.name).Nodup) (hslot : slot ∈ slots) :
    ∃ f, fs.find? (·.name == slot.name) = some f ∧ Fills draft slot f := by
  induction hfills with
  | nil => cases hslot
  | @cons first f slots fs hf _ ih =>
      rw [List.map_cons, List.nodup_cons] at hnodup
      rcases List.mem_cons.mp hslot with rfl | hslot
      · exact ⟨f, List.find?_cons_of_pos (beq_iff_eq.mpr hf.name), hf⟩
      · have hne : (f.name == slot.name) = false := by
          rw [beq_eq_false_iff_ne, hf.name]
          intro heq
          exact hnodup.1 (heq ▸ List.mem_map_of_mem hslot)
        rw [List.find?_cons, hne]
        exact ih hnodup.2 hslot

/-! ## Records -/

/-- The texts of elements behind `n` others, up to the closing bracket. -/
def ElementsBehind : Nat → List Json → List Char → Prop
  | 0 => Json.Elements
  | _ + 1 => Json.MoreElements

section ElementsBehind
variable {n : Nat} {v : Json} {vs : List Json} {s : List Char}

theorem ElementsBehind.nil (h : ElementsBehind n [] s) : ∃ b, Blank b ∧ s = b ++ [']'] := by
  cases n with
  | zero =>
      obtain ⟨hb⟩ : Json.Elements [] s := h
      exact ⟨_, hb, rfl⟩
  | succ n =>
      obtain ⟨hb⟩ : Json.MoreElements [] s := h
      exact ⟨_, hb, rfl⟩

theorem ElementsBehind.cons (h : ElementsBehind n (v :: vs) s) (t : List Char) :
    ∃ s₁ s₂, Json.Spelling v s₁ ∧ Json.MoreElements vs s₂ ∧
      (nextValue .list (n == 0)).Takes (s ++ t) true (s₁ ++ (s₂ ++ t)) := by
  cases n with
  | zero =>
      obtain _ | ⟨hb, hspell, hmore⟩ : Json.Elements (v :: vs) s := h
      refine ⟨_, _, hspell, hmore, ?_⟩
      simp only [List.append_assoc]
      exact takes_nextValue_first hb (.of_spelling hspell _)
  | succ n =>
      obtain _ | ⟨hb, hb', hspell, hmore⟩ : Json.MoreElements (v :: vs) s := h
      refine ⟨_, _, hspell, hmore, ?_⟩
      simp only [List.append_assoc, List.cons_append]
      exact takes_nextValue_more hb hb' (.of_spelling hspell _)

end ElementsBehind

namespace Record

variable {r : Record σ α} {a : α} {levels : Nat}

/-- The slots are those of the record's fields, and a draft with all that is needed makes up
`a`. -/
structure Restores (r : Record σ α) (slots : List Slot) (draft : List String → σ) (a : α) :
    Prop where
  nodup : (slots.map Slot.name).Nodup
  start : r.start = draft []
  fills : List.Forall₂ (Fills draft) slots r.fields
  finish : ∀ seen, Slot.Suffice slots seen → r.finish (draft seen) = .ok a

section Object
variable {es : List (String × Json)} {s : List Char}

theorem Restores.readsEntry (h : r.Restores slots draft a) (hslot : slot ∈ slots)
    {seen : List String} (hfresh : slot.name ∉ seen) {v : Json} (hv : slot.admits v)
    (hlevels : v.depth ≤ levels) :
    ReadsEntry (r.entry levels slot.name (draft seen)) v (draft (slot.name :: seen)) := by
  obtain ⟨f, hfind, hf⟩ := exists_fills h.fills h.nodup hslot
  intro b b' s t hb hb' hs ht
  rw [Record.entry, hfind]
  dsimp only
  rw [hf.isSet seen hfresh, if_neg Bool.false_ne_true]
  exact (hf.reads seen v hv hlevels).within.entry hb hb' hs ht (takes_pure _ t)

theorem Restores.readsEntries (h : r.Restores slots draft a) (hes : Slot.Entries slots es)
    (hlevels : ∀ e ∈ es, e.2.depth ≤ levels) :
    ∃ seen, Slot.Suffice slots seen ∧
      ReadsEntries (r.entry levels) (draft []) es (draft seen) := by
  obtain ⟨seen, hsuffice, hread⟩ :=
    hes.along (P := fun d es d' => (∀ e ∈ es, e.2.depth ≤ levels) →
      ReadsEntries (r.entry levels) d es d') draft (fun d _ => .nil d)
      fun _ hslot _ hfresh _ hv _ _ ih hlevels =>
        have hlevels := List.forall_mem_cons.mp hlevels
        .cons (h.readsEntry hslot hfresh hv hlevels.1) (ih hlevels.2)
  exact ⟨seen, hsuffice, hread hlevels⟩

theorem Restores.takes_ofObject (h : r.Restores slots draft a) (hes : Slot.Entries slots es)
    (hlevels : ∀ e ∈ es, e.2.depth ≤ levels) (hs : Json.Entries es s) (t : List Char) :
    (r.ofObject levels).Takes (s ++ t) (.ok a) ('}' :: t) := by
  obtain ⟨seen, hsuffice, hread⟩ := h.readsEntries hes hlevels
  rw [← h.start] at hread
  refine (takes_entries hread hs t).bind ?_
  dsimp only
  rw [h.finish seen hsuffice]
  exact takes_pure _ _

end Object

section List
variable {fs : List (Field σ)} {vs : List Json} {n : Nat} {s : List Char}

/-- The fields are taken from the list until it ends or there are no more of them. -/
theorem takes_listFields (hfills : List.Forall₂ (Fills draft) slots fs)
    (hvs : Slot.Elements slots vs) (hlevels : ∀ v ∈ vs, v.depth ≤ levels)
    (hs : ElementsBehind n vs s) (seen : List String) (t : List Char) :
    ∃ b m seen', Blank b ∧ seen ⊆ seen' ∧ Slot.Suffice slots seen' ∧
      (listFields levels fs n (draft seen)).Takes (s ++ t) (.ok (m, draft seen'))
        (b ++ ']' :: t) := by
  induction hvs generalizing fs n s seen with
  | nil hopt =>
      obtain ⟨b, hb, rfl⟩ := hs.nil
      rw [List.append_assoc]
      have hsuffice : Slot.Suffice _ seen := fun slot hslot _ => hopt slot hslot
      cases hfills with
      | nil => exact ⟨b, n, seen, hb, List.Subset.refl seen, hsuffice, takes_pure _ _⟩
      | cons =>
          refine ⟨[], n, seen, nofun, List.Subset.refl seen, hsuffice, ?_⟩
          exact (takes_nextValue_end hb (n == 0) t).bind (takes_pure _ _)
  | @cons slot slots v vs hv _ ih =>
      obtain _ | ⟨hf, hfs⟩ := hfills
      obtain ⟨s₁, s₂, hspell, hmore, hnext⟩ := hs.cons t
      obtain ⟨hlevel, hlevels⟩ := List.forall_mem_cons.mp hlevels
      obtain ⟨b, m, seen', hb, hsub, hsuffice, hrest⟩ :=
        ih hfs hlevels (n := n + 1) hmore (slot.name :: seen)
      have hseen : slot.name ∈ seen' := hsub List.mem_cons_self
      refine ⟨b, m, seen', hb, fun k hk => hsub (List.mem_cons_of_mem _ hk),
        Slot.suffice_cons.mpr ⟨fun hmem => (hmem hseen).elim, hsuffice⟩, ?_⟩
      have hfield := hf.reads seen v hv hlevel (b := []) nofun hspell (breaks_moreElements hmore t)
      exact hnext.bind (hfield.within.bind hrest)

theorem Restores.takes_ofList (h : r.Restores slots draft a) (hvs : Slot.Elements slots vs)
    (hlevels : ∀ v ∈ vs, v.depth ≤ levels) (hs : Json.Elements vs s) (t : List Char) :
    ∃ b, Blank b ∧ (r.ofList levels).Takes (s ++ t) (.ok a) (b ++ ']' :: t) := by
  obtain ⟨b, m, seen, hb, -, hsuffice, hfields⟩ :=
    takes_listFields h.fills hvs hlevels (n := 0) hs [] t
  rw [← h.start] at hfields
  refine ⟨b, hb, hfields.bind ?_⟩
  dsimp only
  rw [h.finish seen hsuffice]
  exact takes_pure _ _

end List

/-- **Records.** Both forms of a record are read as what they were written for. -/
theorem Restores.reads {j : Json} (h : r.Restores slots draft a) (hj : Slot.Written slots j) :
    ReadsNested r.read j a := by
  intro levels hlevels b s t hb hs _
  have hsolid := solid_spelling hs t
  cases levels with
  | zero => cases hj <;> cases hlevels
  | succ levels =>
      refine takes_blanks_bind hb hsolid (takes_peek_bind ?_)
      cases hj with
      | object hes =>
          cases hs with
          | obj hentries =>
              have hes' := Json.depthOfEntries_le_iff.mp (Nat.le_of_succ_le_succ hlevels)
              have hfields := h.takes_ofObject hes hes' hentries t
              exact takes_advance_bind (hfields.bind
                ((takes_close (b := []) nofun t).bind (takes_pure a t)))
      | list hvs =>
          cases hs with
          | arr helements =>
              have hvs' := Json.depthOfElements_le_iff.mp (Nat.le_of_succ_le_succ hlevels)
              obtain ⟨b, hb, hfields⟩ := h.takes_ofList hvs hvs' helements t
              exact takes_advance_bind (hfields.bind ((takes_close hb t).bind (takes_pure a t)))

end Record

end Document

end Nullness
