import Nullness.Loading
import Nullness.Proofs.Documents
import Nullness.Proofs.Locality

/-!
# What stands behind a document

Values of any form, skipped values and records are read without a look ahead. A document ends with
its closing bracket, so whatever follows it changes nothing.

- `Json.Reader.local_tree`, `Json.Reader.local_skip`: values, whether or not they are asked for.
- `Document.Record.seals_read`: a record is over at its closing bracket.
- `Graph.ofText_append`: what stands behind a document is not looked at.
-/

namespace Nullness

namespace Json

namespace Reader

variable {α β σ : Type}

/-! ## Containers -/

theorem local_nextValue (b : Bracket) (first : Bool) : (nextValue b first).Local := by
  intro s more t h _ u
  refine takes_of_next ?_
  cases next_of_takes h with
  | closing hs => exact .closing (span_append_of_cons hs u).2
  | first hs hc => exact .first (span_append_of_cons hs u).2 hc
  | comma hs ht hc =>
    -- behind a comma, the next character has to be there as well
    exact .comma (span_append_of_cons hs u).2 (span_append_of_cons ht u).2 hc

theorem local_quotedKey : quotedKey.Local := by
  refine local_peek.bind fun next => ?_
  split
  · exact local_fail _
  · exact local_ite (local_advance.bind fun _ => local_literalRest) (local_fail _)

theorem local_nextKey (first : Bool) : (nextKey first).Local :=
  (local_nextValue _ _).bind fun _ => local_ite local_quotedKey.map (local_pure _)

theorem local_colon : colon.Local := by
  refine local_blanks.bind fun _ => local_peek.bind fun next => ?_
  split
  · exact local_fail _
  · exact local_ite local_advance (local_fail _)

theorem local_elements {element : Nat → Reader α} (h : ∀ i, (element i).Local) :
    (elements element).Local := by
  have hstep : ∀ acc, Step.Local (elementStep element) acc := by
    intro acc s turn hturn hrest u
    rw [elementStep] at hturn
    split at hturn
    · cases hturn
    · next hend =>
      cases hturn
      obtain ⟨le, hdone⟩ := elementStep_done element acc (local_nextValue _ _ ⟨_, hend⟩ hrest u)
      exact ⟨_, hdone, .done⟩
    · next hmore =>
      split at hturn
      · cases hturn
      · next a v le hread =>
        cases hturn
        have htakes : (element acc.size).Takes _ a v := takes_within_iff.mp ⟨_, hread⟩
        have hmore := local_nextValue _ _ ⟨_, hmore⟩ (htakes.rest_ne_nil hrest) u
        obtain ⟨lt, hagain⟩ := elementStep_again hmore (h _ htakes hrest u)
        exact ⟨_, hagain, .again⟩
  refine (local_nextValue _ _).bind fun more => local_ite ?_ (local_pure _)
  exact (h 0).within.bind fun a => local_loop hstep _

theorem entryStep_stop {entry : String → σ → Reader (σ ⊕ β)} {finish : σ → β} {first : Bool}
    {d : σ} {k : String} {b : β} {s t u : List Char} (h : (nextKey first).Takes s (some k) t)
    (he : (entry k d).Takes t (.inr b) u) :
    ∃ le, entryStep entry finish (first, d) s = .ok (.done b u le) := by
  obtain ⟨le, h⟩ := h
  obtain ⟨le', he⟩ := he
  unfold entryStep
  dsimp only
  split
  · next h' => cases h.symm.trans h'
  · next h' => cases h.symm.trans h'
  · next h' =>
    cases h.symm.trans h'
    rw [he]
    exact ⟨Nat.le_trans le' le, rfl⟩

theorem local_entries {entry : String → σ → Reader (σ ⊕ β)} {finish : σ → β} {d : σ}
    (h : ∀ k d, (entry k d).Local) : (entries entry finish d).Local := by
  have hstep : ∀ state, Step.Local (entryStep entry finish) state := by
    rintro ⟨first, d⟩ s turn hturn hrest u
    rw [entryStep] at hturn
    split at hturn
    · cases hturn
    · next hend =>
      cases hturn
      obtain ⟨le, hdone⟩ := entryStep_done entry finish d (local_nextKey _ ⟨_, hend⟩ hrest u)
      exact ⟨_, hdone, .done⟩
    · next k t _ hkey =>
      split at hturn
      · cases hturn
      · next b v le hread =>
        cases hturn
        have htakes : (entry k d).Takes t (.inr b) v := ⟨le, hread⟩
        have hkey := local_nextKey _ ⟨_, hkey⟩ (htakes.rest_ne_nil hrest) u
        obtain ⟨le', hdone⟩ : ∃ le', entryStep entry finish (first, d) _ = .ok (.done b _ le') :=
          entryStep_stop hkey (h k d htakes hrest u)
        exact ⟨_, hdone, .done⟩
      · next d' v le hread =>
        cases hturn
        have htakes : (entry k d).Takes t (.inl d') v := ⟨le, hread⟩
        have hkey := local_nextKey _ ⟨_, hkey⟩ (htakes.rest_ne_nil hrest) u
        obtain ⟨lt, hagain⟩ : ∃ lt, entryStep entry finish (first, d) _ =
            .ok (.again (false, d') _ lt) := entryStep_again hkey (h k d htakes hrest u)
        exact ⟨_, hagain, .again⟩
  exact local_loop hstep _

theorem seals_close (b : Bracket) : (close b).Seals := by
  intro s _ t h
  have hdrop := takes_close_iff.mp h
  constructor
  · rintro rfl
    cases hdrop
  · exact fun u => takes_close_iff.mpr (span_append_of_cons hdrop u).2

theorem local_enclosed {b : Bracket} {contents : Nat → Reader α} (h : ∀ n, (contents n).Local)
    (levels : Nat) : (enclosed b levels contents).Local := by
  cases levels with
  | zero => exact local_fail _
  | succ levels =>
    refine local_advance.bind fun _ => (h levels).bind fun a => ?_
    exact (seals_close b).local.bind fun _ => local_pure a

/-! ## Any value -/

theorem local_tree (levels : Nat) : (tree levels).Local := by
  induction levels with
  | zero =>
    rw [tree.eq_def]
    refine local_blanks.bind fun _ => local_peek.bind fun next => ?_
    split
    · exact local_fail _
    · exact local_fail _
    · exact local_scalar
  | succ levels ih =>
    have hentry : ∀ k acc, (treeEntry (tree levels) k acc).Local := fun k acc =>
      local_colon.bind fun _ => ih.within.bind fun v => local_pure _
    rw [tree.eq_def]
    refine local_blanks.bind fun _ => local_peek.bind fun next => ?_
    split
    · refine local_advance.bind fun _ => (local_elements fun _ => ih).bind fun es => ?_
      exact (seals_close _).local.bind fun _ => local_pure _
    · refine local_advance.bind fun _ => (local_entries hentry).bind fun j => ?_
      exact (seals_close _).local.bind fun _ => local_pure _
    · exact local_scalar

/-! ## Values of an expected form -/

theorem seals_unexpected (expected : String) : (unexpected expected : Reader α).Seals := by
  refine local_peek.bind_seals fun next => ?_
  split
  · exact seals_failBefore _
  · exact seals_failBefore _
  · exact local_scalar.bind_seals fun _ => seals_failBefore _

theorem local_unexpected (expected : String) : (unexpected expected : Reader α).Local :=
  (seals_unexpected expected).local

theorem local_string : string.Local :=
  local_blanks.bind fun _ => (local_eat _).bind fun _ =>
    local_ite local_literalRest (local_unexpected _)

theorem local_boolean : boolean.Local := by
  refine local_blanks.bind fun _ => local_peek.bind fun next => ?_
  split
  · exact local_advance.bind fun _ => (local_word _).bind fun _ => local_pure _
  · exact local_advance.bind fun _ => (local_word _).bind fun _ => local_pure _
  · exact local_unexpected _

theorem local_nothing (expected : String) : (nothing expected).Local :=
  local_blanks.bind fun _ => (local_eat _).bind fun _ =>
    local_ite (local_word _) (local_unexpected _)

theorem local_word32 : word32.Local := by
  refine local_blanks.bind fun _ => local_peek.bind fun next => ?_
  split
  · refine local_ite (local_number.bind fun n => ?_) (local_unexpected _)
    split
    · exact local_ite (local_pure _) (local_failBefore _)
    · exact local_failBefore _
    · exact local_failBefore _
  · exact local_unexpected _

theorem Local.optional {r : Reader α} (h : r.Local) : (optional r).Local :=
  local_blanks.bind fun _ => (local_eat _).bind fun _ =>
    local_ite ((local_word _).bind fun _ => local_pure _) h.map

theorem local_list {element : Nat → Reader α} (h : ∀ levels, (element levels).Local)
    (levels : Nat) : (list element levels).Local :=
  local_blanks.bind fun _ => local_peek.bind fun _ =>
    local_ite (local_enclosed (fun levels => local_elements fun _ => h levels) levels)
      (local_unexpected _)

theorem local_onlyKey : onlyKey.Local := by
  refine local_blanks.bind fun _ => local_peek.bind fun next => ?_
  split
  · exact local_fail _
  · exact local_ite (local_advance.bind fun _ => local_literalRest) (local_fail _)

theorem local_oneOf (words : List String) (ofWord? : String → Option α) (levels : Nat) :
    (oneOf words ofWord? levels).Local := by
  unfold oneOf
  extract_lets meaning
  have hmeaning : ∀ w, (meaning w).Local := by
    intro w
    dsimp only [meaning]
    split
    · exact local_pure _
    · exact local_failBefore _
  refine local_blanks.bind fun _ => local_peek.bind fun next => ?_
  split
  · exact local_fail _
  · refine local_ite (local_advance.bind fun _ => local_literalRest.bind hmeaning) ?_
    refine local_ite ?_ (local_fail _)
    split
    · exact local_fail _
    · refine local_advance.bind fun _ => local_onlyKey.bind fun w => (hmeaning w).bind fun a => ?_
      refine local_colon.bind fun _ => (local_nothing _).within.bind fun _ => ?_
      refine local_blanks.bind fun _ => local_peek.bind fun next => ?_
      split
      · exact local_fail _
      · exact local_ite (local_advance.bind fun _ => local_pure _) (local_failBefore _)

/-! ## Skipped values -/

theorem local_skipExponent : skipExponent.Local := by
  refine local_peek.bind fun mark => local_ite ?_ (local_pure _)
  refine local_advance.bind fun _ => local_peek.bind fun sign => ?_
  refine local_ite (local_advance.bind ?rest) (?rest ())
  exact fun _ => local_digits.bind fun _ => local_ite (local_fail _) (local_pure _)

theorem local_skipNumber (first : Char) : (skipNumber first).Local := by
  have hfraction : Reader.Local (do
      if ← eat '.' then
        if (← digits).isEmpty then fail .invalidNumber
      skipExponent) := by
    refine (local_eat _).bind fun point => local_ite ?_ local_skipExponent
    refine local_digits.bind fun ds => local_ite ?_ local_skipExponent
    exact (local_fail _).bind fun _ => local_skipExponent
  refine local_ite (local_peek.bind fun next => local_ite ?_ hfraction)
    (local_digits.bind fun _ => hfraction)
  exact (local_fail _).bind fun _ => hfraction

theorem local_skipEscape : skipEscape.Local := by
  refine local_peek.bind fun next => ?_
  split
  · exact local_fail _
  · refine local_ite (local_advance.bind fun _ => local_codeUnit.bind fun _ => local_pure _) ?_
    exact local_ite local_advance (local_fail _)

theorem local_skipString : skipString.Local :=
  local_loop (fun _ => local_quotedStep rfl (fun _ _ => rfl) local_skipEscape) ()

theorem local_skipScalar (first : Char) : (skipScalar first).Local := by
  refine local_ite (local_word _) (local_ite (local_word _) (local_ite (local_word _) ?_))
  refine local_ite local_skipString (local_ite (local_skipNumber _) ?_)
  refine local_peek.bind fun next => ?_
  split
  · exact local_fail _
  · exact local_ite (local_advance.bind fun _ => local_skipNumber _) (local_fail _)

theorem local_skipKey (b : Bracket) : (skipKey b).Local := by
  cases b with
  | list => exact local_pure ()
  | object =>
    refine local_blanks.bind fun _ => local_peek.bind fun next => ?_
    split
    · exact local_fail _
    · refine local_ite (local_advance.bind fun _ => ?_) (local_fail _)
      exact local_skipString.bind fun _ => local_colon

theorem local_skipOpened (b : Bracket) (around : List Bracket) : (skipOpened b around).Local := by
  refine local_blanks.bind fun _ => local_peek.bind fun next => ?_
  split
  · exact local_fail _
  · exact local_ite (local_advance.bind fun _ => local_pure _)
      ((local_skipKey b).bind fun _ => local_pure _)

/-- In front of a value that is skipped. -/
theorem local_skipStep_value (around : List Bracket) : Step.Local skipStep ⟨true, around⟩ := by
  intro s turn h hrest u
  simp only [skipStep] at h ⊢
  split at h
  · cases h
  · next c t hs =>
    obtain ⟨-, hdrop⟩ := span_append_of_cons hs u
    split
    · next hdrop' => cases hdrop.symm.trans hdrop'
    · next hdrop' =>
      cases hdrop.symm.trans hdrop'
      by_cases hlist : c = '['
      · rw [if_pos hlist] at h ⊢
        exact (local_skipOpened _ _).again h hrest _
      · rw [if_neg hlist] at h ⊢
        by_cases hobject : c = '{'
        · rw [if_pos hobject] at h ⊢
          exact (local_skipOpened _ _).again h hrest _
        · rw [if_neg hobject] at h ⊢
          split at h
          · next hscalar =>
            rw [if_pos hscalar]
            exact ((local_skipScalar c).bind fun _ => local_pure _).again h hrest _
          · cases h

/-- Behind a value that is skipped, in a container. -/
theorem local_skipStep_behind (b : Bracket) (around : List Bracket) :
    Step.Local skipStep ⟨false, b :: around⟩ := by
  intro s turn h hrest u
  simp only [skipStep] at h ⊢
  split at h
  · cases h
  · next c t hs =>
    obtain ⟨-, hdrop⟩ := span_append_of_cons hs u
    split
    · next hdrop' => cases hdrop.symm.trans hdrop'
    · next hdrop' =>
      cases hdrop.symm.trans hdrop'
      by_cases hclose : c = b.closing
      · rw [if_pos hclose] at h ⊢
        exact (local_pure _).again h hrest _
      · rw [if_neg hclose] at h ⊢
        split at h
        · next hcomma =>
          rw [if_pos hcomma]
          exact ((local_skipKey b).bind fun _ => local_pure _).again h hrest _
        · cases h

theorem local_skip : skip.Local := by
  have hstep : ∀ state, Step.Local skipStep state
    | ⟨true, around⟩ => local_skipStep_value around
    | ⟨false, b :: around⟩ => local_skipStep_behind b around
    | ⟨false, []⟩ => by
        rintro s _ ⟨⟩ _ u
        exact ⟨_, rfl, .done⟩
  exact local_loop hstep _

end Reader

end Json

namespace Document

open Json (Reader Bracket)
open Json.Reader

variable {σ α τ : Type}

/-! ## Records -/

/-- The value of a field is read without a look ahead. -/
def Field.Local (f : Field σ) : Prop :=
  ∀ levels d, (f.read levels d).Local

theorem Field.local_of {name : String} {get : σ → Option τ} {set : σ → τ → σ}
    {r : Nat → Reader τ} (h : ∀ levels, (r levels).Local) : (Field.of name get set r).Local :=
  fun levels _ => (h levels).bind fun _ => local_pure _

namespace Record

variable {r : Record σ α}

theorem local_entry (h : ∀ f ∈ r.fields, f.Local) (levels : Nat) (k : String) (d : σ) :
    (r.entry levels k d).Local := by
  rw [entry]
  split
  · refine local_ite (local_pure _) (local_colon.bind fun _ => ?_)
    exact local_skip.within.bind fun _ => local_pure _
  · next f hf =>
    refine local_ite (local_pure _) (local_colon.bind fun _ => ?_)
    refine (h f (List.mem_of_find?_eq_some hf) levels d).within.bind fun outcome => ?_
    split <;> exact local_pure _

theorem local_listFields {fs : List (Field σ)} (h : ∀ f ∈ fs, f.Local) (levels n : Nat) (d : σ) :
    (listFields levels fs n d).Local := by
  induction fs generalizing n d with
  | nil => exact local_pure _
  | cons f fs ih =>
    rw [List.forall_mem_cons] at h
    refine (local_nextValue _ _).bind fun more => local_ite ?_ (local_pure _)
    refine (h.1 levels d).within.bind fun outcome => ?_
    split
    · exact ih h.2 _ _
    · exact local_pure _

theorem seals_settle (b : Bracket) (outcome : Except Complaint α) : (settle b outcome).Seals := by
  cases outcome with
  | ok a => exact (seals_close b).bind_pure
  | error c => exact seals_of_error fun _ => ⟨_, rfl⟩

/-- A record is over at its closing bracket, in both of its forms. -/
theorem seals_read (h : ∀ f ∈ r.fields, f.Local) (levels : Nat) : (r.read levels).Seals := by
  have hobject : ∀ levels, (r.ofObject levels).Local := by
    refine fun levels => (local_entries (local_entry h levels)).bind fun outcome => ?_
    split
    · exact local_pure _
    · split <;> exact local_pure _
  have hlist : ∀ levels, (r.ofList levels).Local := by
    refine fun levels => (local_listFields h levels _ _).bind fun outcome => ?_
    split
    · exact local_pure _
    · split <;> exact local_pure _
  refine local_blanks.bind_seals fun _ => local_peek.bind_seals fun next => ?_
  split
  · cases levels with
    | zero => exact seals_fail _
    | succ levels =>
      exact local_advance.bind_seals fun _ => (hobject levels).bind_seals (seals_settle _)
  · cases levels with
    | zero => exact seals_fail _
    | succ levels =>
      exact local_advance.bind_seals fun _ => (hlist levels).bind_seals (seals_settle _)
  · exact seals_unexpected _

theorem local_read (h : ∀ f ∈ r.fields, f.Local) (levels : Nat) : (r.read levels).Local :=
  (seals_read h levels).local

end Record

/-! ## Documents -/

theorem local_siteRecord (levels : Nat) : (siteRecord.read levels).Local := by
  refine Record.local_read ?_ levels
  simp only [siteRecord, List.forall_mem_cons]
  exact ⟨Field.local_of fun _ => local_string, Field.local_of fun _ => local_word32,
    List.forall_mem_nil _⟩

theorem Field.local_valueField : valueField.Local := by
  refine fun levels d => (local_tree levels).bind fun j => ?_
  split <;> exact local_pure _

theorem local_argumentRecord (levels : Nat) : (argumentRecord.read levels).Local := by
  refine Record.local_read ?_ levels
  simp only [argumentRecord, List.forall_mem_cons]
  exact ⟨Field.local_of fun _ => local_string, Field.local_valueField, List.forall_mem_nil _⟩

theorem local_annotationRecord (levels : Nat) : (annotationRecord.read levels).Local := by
  refine Record.local_read ?_ levels
  simp only [annotationRecord, List.forall_mem_cons]
  exact ⟨Field.local_of fun _ => local_string, Field.local_of fun _ => local_boolean,
    Field.local_of (local_list local_argumentRecord), List.forall_mem_nil _⟩

theorem local_symbolRecord (levels : Nat) : (symbolRecord.read levels).Local := by
  refine Record.local_read ?_ levels
  simp only [symbolRecord, List.forall_mem_cons]
  exact ⟨Field.local_of fun _ => local_string, Field.local_of (local_oneOf _ _),
    Field.local_of fun _ => local_string, Field.local_of fun _ => local_string.optional,
    Field.local_of fun _ => local_boolean, Field.local_of fun _ => local_boolean,
    Field.local_of fun levels => (local_siteRecord levels).optional,
    Field.local_of (local_list local_annotationRecord), List.forall_mem_nil _⟩

/-- A document is over at its closing bracket. -/
theorem seals_record (levels : Nat) : (record.read levels).Seals := by
  refine Record.seals_read ?_ levels
  simp only [record, List.forall_mem_singleton]
  exact Field.local_of (local_list local_symbolRecord)

theorem read_append {text : String} {es : List SymbolEntry} (h : read text = .ok es)
    (more : String) : read (text ++ more) = .ok es := by
  rw [read] at h
  split at h
  · next taken htaken =>
    cases h
    obtain ⟨-, hgo⟩ := seals_record depthLimit ⟨taken.le, htaken⟩
    have happend := hgo more.toList
    rw [← String.toList_append] at happend
    obtain ⟨le, happend⟩ := happend
    rw [read, happend]
  · cases h

end Document

namespace Graph

open Document

/-- **Nothing behind a document is looked at.** A text that is read as a document, whether or not
its entries make a graph, comes to the same graph or to the same error when it goes on. -/
theorem ofText_append {text : String} (h : ∀ d, Graph.ofText text ≠ .error (.unreadable d))
    (more : String) : Graph.ofText (text ++ more) = Graph.ofText text := by
  rw [ofText] at h
  split at h
  · next d _ => exact absurd rfl (h d)
  · next es hread => rw [ofText, ofText, hread, Document.read_append hread more]

/-- Two entries with one identifier. The site of the second one has a key that means nothing. -/
def repeating : String :=
  "\x7b\"symbols\":[[\"p\",\"package\",\"p\"]," ++
    "\x7b\"id\":\"p\",\"kind\":\"package\",\"name\":\"q\"," ++
    "\"declaration\":\x7b\"path\":\"Q\",\"end\":[\"\\n\",1.5e3],\"line\":1\x7d\x7d]\x7d"

/-- A document that makes a graph, with a bracket too many, and one that makes none, with a string
that does not end. -/
theorem ofText_append_bothForms :
    (∃ g, Graph.ofText bothForms = .ok g ∧ Graph.ofText (bothForms ++ "]") = .ok g) ∧
      Graph.ofText repeating = .error (.duplicateId "p") ∧
      Graph.ofText (repeating ++ "\"") = .error (.duplicateId "p") := by
  have hmakes : ∃ g, Graph.ofText bothForms = .ok g := by
    have h : (Graph.ofText bothForms).isOk = true := by decide +kernel
    cases hload : Graph.ofText bothForms with
    | ok g => exact ⟨g, rfl⟩
    | error err =>
      rw [hload] at h
      cases h
  have hrepeats : Graph.ofText repeating = .error (.duplicateId "p") := by
    have h : (match Graph.ofText repeating with
        | .error (.duplicateId id) => id == "p"
        | _ => false) = true := by decide +kernel
    split at h
    · next id hload => rw [hload, eq_of_beq h]
    · cases h
  obtain ⟨g, hg⟩ := hmakes
  exact ⟨⟨g, hg, (ofText_append (by simp [hg]) "]").trans hg⟩, hrepeats,
    (ofText_append (by simp [hrepeats]) "\"").trans hrepeats⟩

end Graph

end Nullness
