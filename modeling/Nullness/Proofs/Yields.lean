import Nullness.Document.Read
import Nullness.Proofs.Loaded

/-!
# What readers can give

A reader may promise something of its values that does not depend on the text. Values of
records keep such promises too: an invariant of the draft holds from the start and with each
field that is read.

- `Json.Reader.Yields`: all that a reader gives satisfies a property.
- `Document.Record.yields`: the invariant of a draft, and what follows for the record.
- `Graph.fitsWord_of_ofText`: the lines of a loaded graph have 32 bits.
-/

namespace Nullness

namespace Json

namespace Reader

variable {α β σ : Type}

/-- Whatever `r` takes off a text satisfies `P`. -/
def Yields (r : Reader α) (P : α → Prop) : Prop :=
  ∀ ⦃s a t le⦄, r s = .ok ⟨a, t, le⟩ → P a

/-! ## Readers in a row -/

section Basic
variable {r : Reader α} {f : α → Reader β} {P : α → Prop} {Q : β → Prop} {a : α}

theorem yields_pure (h : P a) : (pure a : Reader α).Yields P := by
  intro s b t le hr
  cases hr
  exact h

theorem yields_fail (cause : Cause) : (fail cause : Reader α).Yields P := by
  intro s a t le hr
  cases hr

theorem yields_failBefore (cause : Cause) : (failBefore cause : Reader α).Yields P := by
  intro s a t le hr
  cases hr

theorem Yields.bind (h : r.Yields P) (hf : ∀ a, P a → (f a).Yields Q) : (r >>= f).Yields Q := by
  intro s b u le hr
  obtain ⟨a, t, le₁, le₂, hr, hfr⟩ := bind_eq_ok.mp hr
  exact hf a (h hr) hfr

/-- Nothing has to be known of what is read on the way. -/
theorem yields_bind (hf : ∀ a, (f a).Yields Q) : (r >>= f).Yields Q := by
  have htrue : r.Yields fun _ => True := fun _ _ _ _ _ => trivial
  exact htrue.bind fun a _ => hf a

theorem Yields.within (seg : Segment) (h : r.Yields P) : (r.within seg).Yields P := by
  intro s a t le hr
  rw [Reader.within] at hr
  split at hr
  · cases hr
  · next taken htaken =>
    cases hr
    exact h htaken

theorem yields_unexpected (expected : String) : (unexpected expected : Reader α).Yields P := by
  refine yields_bind fun next => ?_
  split
  · exact yields_failBefore _
  · exact yields_failBefore _
  · exact yields_bind fun _ => yields_failBefore _

end Basic

/-! ## Loops -/

section Loop
variable {step : Step σ β} {state : σ} {I : σ → Prop} {P : β → Prop}

/-- What one turn of a loop does: the invariant is kept, or the result is as promised. -/
structure Step.Keeps (step : Step σ β) (I : σ → Prop) (P : β → Prop) : Prop where
  again : ∀ {state s state' t lt}, I state → step state s = .ok (.again state' t lt) → I state'
  done : ∀ {state s b t le}, I state → step state s = .ok (.done b t le) → P b

theorem Step.Keeps.loopFrom (h : step.Keeps I P) {n : Nat} {s t : List Char} {b : β}
    {hn : s.length ≤ n} {le : t.length ≤ n} (hstate : I state)
    (hloop : Reader.loopFrom step n state s hn = .ok ⟨b, t, le⟩) : P b := by
  induction state, s, hn using Reader.loopFrom.induct step n with
  | case1 state s hn e hstep =>
      rw [Reader.loopFrom, hstep] at hloop
      cases hloop
  | case2 state s hn b' u le' hstep =>
      rw [Reader.loopFrom, hstep] at hloop
      cases hloop
      exact h.done hstate hstep
  | case3 state s hn state' u lt hstep ih =>
      rw [Reader.loopFrom, hstep] at hloop
      exact ih (h.again hstate hstep) hloop

theorem Step.Keeps.loop (h : step.Keeps I P) (hstate : I state) : (loop step state).Yields P :=
  fun _ _ _ _ hloop => h.loopFrom hstate hloop

end Loop

theorem yields_elements {element : Nat → Reader α} {P : α → Prop}
    (h : ∀ i, (element i).Yields P) : (elements element).Yields fun as => ∀ a ∈ as, P a := by
  have hkeeps : Step.Keeps (elementStep element) (fun acc => ∀ a ∈ acc, P a)
      fun as => ∀ a ∈ as, P a := by
    constructor
    · intro acc s acc' t lt hacc hstep
      rw [elementStep] at hstep
      split at hstep
      · cases hstep
      · cases hstep
      · split at hstep
        · cases hstep
        · next a u le hread =>
          cases hstep
          intro b hb
          rcases Array.mem_push.mp hb with hb | rfl
          · exact hacc b hb
          · exact (h _).within _ hread
    · intro acc s as t le hacc hstep
      rw [elementStep] at hstep
      split at hstep
      · cases hstep
      · cases hstep
        exact fun a ha => hacc a (Array.mem_toList_iff.mp ha)
      · split at hstep
        · cases hstep
        · cases hstep
  refine yields_bind fun more => ?_
  cases more with
  | false => exact yields_pure (by simp)
  | true =>
      refine ((h 0).within (.index 0)).bind fun a ha => hkeeps.loop ?_
      simpa using ha

theorem yields_entries {entry : String → σ → Reader (σ ⊕ β)} {finish : σ → β} {I : σ → Prop}
    {P : β → Prop} (h : ∀ k state, I state → (entry k state).Yields (Sum.elim I P))
    (hfinish : ∀ state, I state → P (finish state)) {state : σ} (hstate : I state) :
    (entries entry finish state).Yields P := by
  have hkeeps : Step.Keeps (entryStep entry finish) (fun acc => I acc.2) P := by
    constructor
    · intro acc s acc' t lt hacc hstep
      rw [entryStep] at hstep
      split at hstep
      · cases hstep
      · cases hstep
      · split at hstep
        · cases hstep
        · cases hstep
        · next hread =>
          cases hstep
          exact h _ _ hacc hread
    · intro acc s b t le hacc hstep
      rw [entryStep] at hstep
      split at hstep
      · cases hstep
      · cases hstep
        exact hfinish _ hacc
      · split at hstep
        · cases hstep
        · next hread =>
          cases hstep
          exact h _ _ hacc hread
        · cases hstep
  exact hkeeps.loop hstate

/-! ## Values of an expected form -/

theorem yields_word32 : word32.Yields (· ≤ greatestWord) := by
  refine yields_bind fun _ => yields_bind fun next => ?_
  split
  · split
    · refine yields_bind fun n => ?_
      split
      · split
        · next hn => exact yields_pure hn
        · exact yields_failBefore _
      · exact yields_failBefore _
      · exact yields_failBefore _
    · exact yields_unexpected _
  · exact yields_unexpected _

theorem Yields.optional {r : Reader α} {P : α → Prop} (h : r.Yields P) :
    (optional r).Yields fun o => ∀ a ∈ o, P a := by
  refine yields_bind fun _ => yields_bind fun isNull => ?_
  split
  · exact yields_bind fun _ => yields_pure (by simp)
  · refine h.bind fun a ha => yields_pure ?_
    simpa using ha

theorem yields_list {element : Nat → Reader α} {P : α → Prop}
    (h : ∀ levels, (element levels).Yields P) (levels : Nat) :
    (list element levels).Yields fun as => ∀ a ∈ as, P a := by
  refine yields_bind fun _ => yields_bind fun next => ?_
  split
  · cases levels with
    | zero => exact yields_fail _
    | succ levels =>
        refine yields_bind fun _ => (yields_elements fun _ => h levels).bind fun as has => ?_
        exact yields_bind fun _ => yields_pure has
  · exact yields_unexpected _

end Reader

end Json

/-- The line of a site has 32 bits. -/
def Site.FitsWord (site : Site) : Prop :=
  site.line ≤ Json.Reader.greatestWord

namespace Document

open Json (Reader)
open Json.Reader

variable {σ α τ : Type} {I : σ → Prop} {P : α → Prop}

/-! ## Records -/

/-- What is promised of an outcome holds unless there is a complaint. -/
def Promised (P : α → Prop) (outcome : Except Complaint α) : Prop :=
  ∀ a, outcome = .ok a → P a

theorem promised_ok {a : α} (h : P a) : Promised P (.ok a) := by
  intro b hb
  cases hb
  exact h

theorem promised_error (c : Complaint) : Promised P (.error c) := by
  intro b hb
  cases hb

/-- A field keeps an invariant of the draft. -/
def Field.Keeps (f : Field σ) (I : σ → Prop) : Prop :=
  ∀ levels d, I d → (f.read levels d).Yields (Promised I)

theorem Field.keeps_of {name : String} {get : σ → Option τ} {set : σ → τ → σ}
    {r : Nat → Reader τ} {Q : τ → Prop} (h : ∀ levels, (r levels).Yields Q)
    (hset : ∀ d v, I d → Q v → I (set d v)) : (Field.of name get set r).Keeps I :=
  fun levels d hd => (h levels).bind fun v hv => yields_pure (promised_ok (hset d v hd hv))

/-- A field that the invariant does not mention. -/
theorem Field.keeps_of_set {name : String} {get : σ → Option τ} {set : σ → τ → σ}
    {r : Nat → Reader τ} (hset : ∀ d v, I d → I (set d v)) :
    (Field.of name get set r).Keeps I :=
  fun _ d hd => yields_bind fun v => yields_pure (promised_ok (hset d v hd))

namespace Record

variable {r : Record σ α}

theorem yields_entry (h : ∀ f ∈ r.fields, f.Keeps I) (levels : Nat) (k : String) {d : σ}
    (hd : I d) : (r.entry levels k d).Yields (Sum.elim I (Promised I)) := by
  rw [entry]
  split
  · split
    · exact yields_pure (promised_error _)
    · exact yields_bind fun _ => yields_bind fun _ => yields_pure hd
  · next f hf =>
    split
    · exact yields_pure (promised_error _)
    · refine yields_bind fun _ => ?_
      refine ((h f (List.mem_of_find?_eq_some hf) levels d hd).within _).bind fun outcome ho => ?_
      cases outcome with
      | ok d => exact yields_pure (ho d rfl)
      | error c => exact yields_pure (promised_error _)

theorem yields_listFields {fs : List (Field σ)} (h : ∀ f ∈ fs, f.Keeps I) (levels n : Nat) {d : σ}
    (hd : I d) : (listFields levels fs n d).Yields (Promised fun m => I m.2) := by
  induction fs generalizing n d with
  | nil => exact yields_pure (promised_ok hd)
  | cons f fs ih =>
      rw [List.forall_mem_cons] at h
      refine yields_bind fun more => ?_
      split
      · refine ((h.1 levels d hd).within _).bind fun outcome ho => ?_
        cases outcome with
        | ok d => exact ih h.2 (n + 1) (ho d rfl)
        | error c => exact yields_pure (promised_error _)
      · exact yields_pure (promised_ok hd)

theorem yields_settle {b : Json.Bracket} {outcome : Except Complaint α} (h : Promised P outcome) :
    (settle b outcome).Yields P := by
  cases outcome with
  | ok a => exact yields_bind fun _ => yields_pure (h a rfl)
  | error c =>
      intro s a t le hr
      cases hr

/-- An invariant of the draft that all fields keep holds for the draft that is finished, in both
forms of the record. -/
theorem yields (h : ∀ f ∈ r.fields, f.Keeps I) (hstart : I r.start)
    (hfinish : ∀ d a, I d → r.finish d = .ok a → P a) (levels : Nat) :
    (r.read levels).Yields P := by
  have hobject : ∀ levels, (r.ofObject levels).Yields (Promised P) := by
    intro levels
    refine (yields_entries (fun k d hd => yields_entry h levels k hd)
      (fun d hd => promised_ok hd) hstart).bind fun outcome ho => ?_
    cases outcome with
    | error c => exact yields_pure (promised_error _)
    | ok d =>
        dsimp only
        split
        · next a ha => exact yields_pure (promised_ok (hfinish d a (ho d rfl) ha))
        · exact yields_pure (promised_error _)
  have hlist : ∀ levels, (r.ofList levels).Yields (Promised P) := by
    intro levels
    refine (yields_listFields h levels 0 hstart).bind fun outcome ho => ?_
    cases outcome with
    | error c => exact yields_pure (promised_error _)
    | ok m =>
        dsimp only
        split
        · next a ha => exact yields_pure (promised_ok (hfinish m.2 a (ho m rfl) ha))
        · exact yields_pure (promised_error _)
  refine yields_bind fun _ => yields_bind fun next => ?_
  split
  · cases levels with
    | zero => exact yields_fail _
    | succ levels => exact yields_bind fun _ => (hobject levels).bind fun _ => yields_settle
  · cases levels with
    | zero => exact yields_fail _
    | succ levels => exact yields_bind fun _ => (hlist levels).bind fun _ => yields_settle
  · exact yields_unexpected _

end Record

/-! ## Lines -/

theorem yields_siteRecord (levels : Nat) : (siteRecord.read levels).Yields Site.FitsWord := by
  refine Record.yields (I := fun d => ∀ n ∈ d.line, n ≤ greatestWord) ?_ (by simp [siteRecord])
    ?_ levels
  · simp only [siteRecord, List.forall_mem_cons]
    refine ⟨Field.keeps_of_set fun d v hd => hd, Field.keeps_of (fun _ => yields_word32) ?_,
      List.forall_mem_nil _⟩
    intro d v hd hv
    simpa using hv
  · intro d site hd hfinish
    simp only [siteRecord] at hfinish
    split at hfinish
    · cases hfinish
    · cases hfinish
    · next path line hpath hline =>
      cases hfinish
      exact hd line hline

theorem yields_symbolRecord (levels : Nat) :
    (symbolRecord.read levels).Yields fun e => ∀ site ∈ e.site, site.FitsWord := by
  refine Record.yields (I := fun d => ∀ site ∈ d.site.join, site.FitsWord) ?_
    (by simp [symbolRecord]) ?_ levels
  · simp only [symbolRecord, List.forall_mem_cons]
    refine ⟨Field.keeps_of_set fun d v hd => hd, Field.keeps_of_set fun d v hd => hd,
      Field.keeps_of_set fun d v hd => hd, Field.keeps_of_set fun d v hd => hd,
      Field.keeps_of_set fun d v hd => hd, Field.keeps_of_set fun d v hd => hd,
      Field.keeps_of (fun levels => (yields_siteRecord levels).optional) ?_,
      Field.keeps_of_set fun d v hd => hd, List.forall_mem_nil _⟩
    intro d v hd hv
    simpa using hv
  · intro d e hd hfinish
    simp only [symbolRecord] at hfinish
    split at hfinish
    · cases hfinish
    · cases hfinish
    · cases hfinish
    · cases hfinish
      exact hd

theorem yields_record (levels : Nat) :
    (record.read levels).Yields fun es => ∀ e ∈ es, ∀ site ∈ e.site, site.FitsWord := by
  refine Record.yields
    (I := fun d => ∀ es ∈ d.symbols, ∀ e ∈ es, ∀ site ∈ e.site, site.FitsWord) ?_
    (by simp [record]) ?_ levels
  · simp only [record, List.forall_mem_singleton]
    refine Field.keeps_of (yields_list yields_symbolRecord) ?_
    intro d es hd hes
    simpa using hes
  · intro d es hd hfinish
    simp only [record] at hfinish
    split at hfinish
    · cases hfinish
    · next es' hes =>
      cases hfinish
      exact hd es hes

theorem fitsWord_of_read {text : String} {es : List SymbolEntry} (h : read text = .ok es) :
    ∀ e ∈ es, ∀ site ∈ e.site, site.FitsWord := by
  rw [read] at h
  split at h
  · next t ht =>
    cases h
    exact yields_record depthLimit ht
  · cases h

end Document

/-- The lines of a loaded graph have 32 bits. -/
theorem Graph.fitsWord_of_ofText {g : Graph} {text : String} (h : ofText text = .ok g)
    {i : SymbolId} {site : Site} (hsite : (g.symbol i).site = some site) : site.FitsWord := by
  rw [ofText] at h
  split at h
  · cases h
  · next es hread =>
    obtain ⟨home, placed, base, r, done, hl⟩ := exists_loaded h
    rw [hl.site] at hsite
    obtain ⟨e, he, heq⟩ := List.mem_filterMap.mp (List.mem_of_getLast? hsite)
    exact Document.fitsWord_of_read hread e (List.mem_of_mem_filter he) site heq

end Nullness
