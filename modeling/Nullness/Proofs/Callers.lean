import Mathlib
import Nullness.Memo
import Nullness.Proofs.Growth

/-!
# Callers that share a session

Several callers may ask one session at the same time. A caller looks into the slot of
its query, computes the verdict if the slot is empty, and stores it. Between these steps
others may come and go, so that several may find a slot empty and compute the verdict
for it; the slot keeps what is stored first.

- `Forum.step`, `Forum.run`: callers that move in any order.
- `Forum.step_ask`: a session answers as a caller whom nobody disturbs.
- `Forum.run_keeps`: a filled slot keeps what was stored first.
- `Forum.Faithful`: slots and callers hold nothing but what the graph says, and the slot of
  whoever has an answer is filled.
- `Forum.memory_invisible`: no answer depends on what is remembered.
-/

namespace Nullness

/-- A question about a symbol and a target, or about the target that the symbol suggests. -/
structure Query where
  id : SymbolId
  asked : Option Target

/-- How far a caller has come. -/
inductive Progress
  | start
  /-- The caller has found the slot of a target empty. -/
  | missed (t : Target)
  /-- The caller has computed the verdict for the slot. -/
  | computed (t : Target) (v : Verdict)
  | answered (v : Verdict)

/-- A caller with a query. -/
structure Caller where
  query : Query
  progress : Progress := .start

/-- A session and its callers, in the order in which they came. -/
structure Forum where
  session : Session
  callers : List Caller := []

/-- What happens next. -/
inductive Move
  /-- A caller comes with a query. -/
  | come (q : Query)
  /-- The caller at a position goes one step further. -/
  | advance (i : Nat)
  /-- A caller comes and is answered before anyone else moves. -/
  | ask (q : Query)

/-- The target that a query is about. -/
def Query.target? (q : Query) (g : Graph) : Option Target :=
  q.asked.or (g.target? q.id)

/-- The next step of a caller. -/
def Caller.advance (s : Session) (c : Caller) : Session × Caller :=
  match c.progress with
  | .start =>
    match c.query.target? s.graph with
    | none => (s, { c with progress := .answered .undecided })
    | some t =>
      match s.memo.find? c.query.id t with
      | some v => (s, { c with progress := .answered v })
      | none => (s, { c with progress := .missed t })
  | .missed t => (s, { c with progress := .computed t (s.graph.resolve c.query.id t) })
  | .computed t v =>
    let (memo, v) := s.memo.store c.query.id t v
    ({ s with memo }, { c with progress := .answered v })
  | .answered _ => (s, c)

namespace Forum

/-- Carries out a move. -/
def step (f : Forum) : Move → Forum
  | .come q => { f with callers := f.callers ++ [{ query := q }] }
  | .advance i =>
    match f.callers[i]? with
    | none => f
    | some c =>
      let (session, c) := c.advance f.session
      { session, callers := f.callers.set i c }
  | .ask q =>
    let (session, v) := f.session.answer q.id q.asked
    { session, callers := f.callers ++ [{ query := q, progress := .answered v }] }

/-- Carries out moves in order. -/
def run (f : Forum) : List Move → Forum
  | [] => f
  | m :: ms => (f.step m).run ms

/-- The query on which a move works. -/
def query? (f : Forum) : Move → Option Query
  | .come q => some q
  | .advance i => f.callers[i]?.map (·.query)
  | .ask q => some q

end Forum

/-! ## A session as a caller -/

theorem Graph.answer_eq (g : Graph) (q : Query) :
    g.answer q.id q.asked = ((q.target? g).map (g.resolve q.id)).getD .undecided := by
  unfold Query.target?
  cases q.asked with
  | some t => rfl
  | none =>
      rw [Graph.answer, Graph.nullability, Option.none_or]
      cases g.target? q.id <;> rfl

theorem Session.answer_eq (s : Session) (q : Query) :
    s.answer q.id q.asked = match q.target? s.graph with
      | some t => s.resolve q.id t
      | none => (s, .undecided) := by
  unfold Query.target?
  cases q.asked with
  | some t => rfl
  | none =>
      cases h : s.graph.target? q.id <;>
        simp only [Session.answer, Session.nullability, Option.none_or, h]

namespace Forum

/-- What a caller does who comes last and is not disturbed: it looks, computes, stores. -/
theorem step_advance_last (s : Session) (cs : List Caller) (c : Caller) :
    (Forum.mk s (cs ++ [c])).step (.advance cs.length) =
      ⟨(c.advance s).1, cs ++ [(c.advance s).2]⟩ := by
  simp [step]

/-- A session that is asked does what a caller does whom nobody disturbs. -/
theorem step_ask (f : Forum) (q : Query) :
    f.step (.ask q) =
      f.run [.come q, .advance f.callers.length, .advance f.callers.length,
        .advance f.callers.length] := by
  obtain ⟨s, cs⟩ := f
  have hcome : (Forum.mk s cs).step (.come q) = ⟨s, cs ++ [{ query := q }]⟩ := rfl
  simp only [run, hcome, step_advance_last]
  rw [step, Session.answer_eq]
  cases ht : q.target? s.graph with
  | none => simp [Caller.advance, ht]
  | some t =>
      cases hfind : s.memo.find? q.id t with
      | some v => simp [Caller.advance, Session.resolve, ht, hfind]
      | none => simp [Caller.advance, Session.resolve, ht, hfind]

end Forum

/-! ## What is stored stays -/

section Keeps
variable {id : SymbolId} {t : Target} {v : Verdict}

theorem Caller.advance_keeps {s : Session} (h : s.memo.find? id t = some v) (c : Caller) :
    (c.advance s).1.memo.find? id t = some v := by
  obtain ⟨q, progress⟩ := c
  cases progress with
  | start =>
      rw [Caller.advance]
      dsimp only
      split
      · exact h
      · split <;> exact h
  | missed t' => exact h
  | computed t' v' => exact Memo.find?_store_of_some h q.id t' v'
  | answered v' => exact h

theorem Forum.advance_keeps {f : Forum} (h : f.session.memo.find? id t = some v) (i : Nat) :
    (f.step (.advance i)).session.memo.find? id t = some v := by
  rw [Forum.step]
  split
  · exact h
  · rename_i c hi
    exact c.advance_keeps h

theorem Forum.step_keeps {f : Forum} (h : f.session.memo.find? id t = some v) (m : Move) :
    (f.step m).session.memo.find? id t = some v := by
  cases m with
  | come q => exact h
  | advance i => exact Forum.advance_keeps h i
  | ask q =>
      rw [Forum.step_ask]
      have hcome : (f.step (.come q)).session.memo.find? id t = some v := h
      exact Forum.advance_keeps (Forum.advance_keeps (Forum.advance_keeps hcome _) _) _

theorem Forum.run_keeps {ms : List Move} : ∀ {f : Forum},
    f.session.memo.find? id t = some v → (f.run ms).session.memo.find? id t = some v := by
  induction ms with
  | nil => exact fun h => h
  | cons m ms ih => exact fun h => ih (Forum.step_keeps h m)

end Keeps

/-! ## What slots and callers hold -/

/-- What a caller holds is what the graph says. -/
def Caller.Faithful (g : Graph) (c : Caller) : Prop :=
  match c.progress with
  | .start => True
  | .missed t => c.query.target? g = some t
  | .computed t v => c.query.target? g = some t ∧ v = g.resolve c.query.id t
  | .answered v => v = g.answer c.query.id c.query.asked

/-- The slots of a session hold what its graph says. -/
structure Session.Faithful (g : Graph) (s : Session) : Prop where
  graph : s.graph = g
  slots : ∀ id t v, s.memo.find? id t = some v → v = g.resolve id t

/-- If the caller has an answer to a query about a target, its slot holds the answer. -/
def Caller.Fills (g : Graph) (s : Session) (c : Caller) : Prop :=
  ∀ v t, c.progress = .answered v → c.query.target? g = some t →
    s.memo.find? c.query.id t = some v

/-- What is remembered and what callers hold is what the graph says. -/
structure Forum.Faithful (g : Graph) (f : Forum) : Prop where
  session : f.session.Faithful g
  callers : ∀ c ∈ f.callers, c.Faithful g
  filled : ∀ c ∈ f.callers, c.Fills g f.session

theorem Session.Faithful.store {g : Graph} {s : Session} (h : s.Faithful g) (id : SymbolId)
    (t : Target) :
    ({ s with memo := (s.memo.store id t (g.resolve id t)).1 } : Session).Faithful g ∧
      (s.memo.store id t (g.resolve id t)).2 = g.resolve id t := by
  have hheld : (s.memo.find? id t).getD (g.resolve id t) = g.resolve id t := by
    cases hfind : s.memo.find? id t with
    | none => rfl
    | some v => exact h.slots id t v hfind
  refine ⟨⟨h.graph, fun id' t' v hv => ?_⟩, by rw [Memo.store_snd, hheld]⟩
  rw [Memo.find?_store, hheld] at hv
  split at hv
  · rename_i hslot
    rw [hslot.1, hslot.2]
    exact (Option.some.inj hv).symm
  · exact h.slots id' t' v hv

theorem Caller.Faithful.advance {g : Graph} {s : Session} {c : Caller} (hs : s.Faithful g)
    (hc : c.Faithful g) : (c.advance s).1.Faithful g ∧ (c.advance s).2.Faithful g := by
  obtain ⟨q, progress⟩ := c
  have hanswer := g.answer_eq q
  cases progress with
  | start =>
      rw [Caller.advance]
      simp only [hs.graph]
      cases ht : q.target? g with
      | none =>
          rw [ht] at hanswer
          exact ⟨hs, hanswer.symm⟩
      | some t =>
          rw [ht] at hanswer
          dsimp only
          cases hfind : s.memo.find? q.id t with
          | some v => exact ⟨hs, (hs.slots q.id t v hfind).trans hanswer.symm⟩
          | none => exact ⟨hs, ht⟩
  | missed t =>
      have ht : q.target? g = some t := hc
      rw [Caller.advance, hs.graph]
      exact ⟨hs, ht, rfl⟩
  | computed t v =>
      obtain ⟨ht, hv⟩ : q.target? g = some t ∧ v = g.resolve q.id t := hc
      rw [ht] at hanswer
      obtain ⟨hstored, hheld⟩ := hs.store q.id t
      rw [Caller.advance, hv]
      exact ⟨hstored, hheld.trans hanswer.symm⟩
  | answered v => exact ⟨hs, hc⟩

theorem Caller.Fills.mono {g : Graph} {s s' : Session} {c : Caller} (h : c.Fills g s)
    (hs : ∀ id t v, s.memo.find? id t = some v → s'.memo.find? id t = some v) : c.Fills g s' :=
  fun v t hv ht => hs _ _ _ (h v t hv ht)

/-- Whoever gets an answer has found its slot filled, or has filled it. -/
theorem Caller.Faithful.fills {g : Graph} {s : Session} {c : Caller} (hs : s.Faithful g)
    (hc : c.Faithful g) (h : c.Fills g s) : (c.advance s).2.Fills g (c.advance s).1 := by
  obtain ⟨q, progress⟩ := c
  intro v t hv ht
  cases progress with
  | start =>
      rw [Caller.advance] at hv ht ⊢
      simp only [hs.graph] at hv ht ⊢
      cases hq : q.target? g with
      | none =>
          simp only [hq] at ht
          cases ht
      | some t' =>
          simp only [hq] at hv ht ⊢
          cases hfind : s.memo.find? q.id t' with
          | none =>
              simp only [hfind] at hv
              cases hv
          | some v' =>
              simp only [hfind, hq] at hv ht ⊢
              cases hv
              cases ht
              exact hfind
  | missed t' => cases hv
  | computed t' v' =>
      obtain ⟨ht', -⟩ : q.target? g = some t' ∧ v' = g.resolve q.id t' := hc
      have ht : q.target? g = some t := ht
      rw [ht', Option.some_inj] at ht
      subst ht
      cases hv
      exact Memo.find?_store_self s.memo q.id t' v'
  | answered v' => exact h v t hv ht

namespace Forum

variable {g : Graph} {f : Forum}

theorem Faithful.come (h : f.Faithful g) (q : Query) : (f.step (.come q)).Faithful g := by
  refine ⟨h.session, fun c hc => ?_, fun c hc => ?_⟩
  all_goals rcases List.mem_append.mp hc with hc | hc
  · exact h.callers c hc
  · rw [List.mem_singleton.mp hc]
    trivial
  · exact h.filled c hc
  · rw [List.mem_singleton.mp hc]
    intro _ _ hv
    cases hv

theorem Faithful.advance (h : f.Faithful g) (i : Nat) : (f.step (.advance i)).Faithful g := by
  rw [step]
  split
  · exact h
  · rename_i c hi
    have hc := List.mem_of_getElem? hi
    obtain ⟨hsession, hcaller⟩ := (h.callers c hc).advance h.session
    have hfilled := (h.callers c hc).fills h.session (h.filled c hc)
    refine ⟨hsession, fun d hd => ?_, fun d hd => ?_⟩
    all_goals rcases List.mem_or_eq_of_mem_set hd with hd | rfl
    · exact h.callers d hd
    · exact hcaller
    · exact (h.filled d hd).mono fun _ _ _ hv => c.advance_keeps hv
    · exact hfilled

theorem Faithful.step (h : f.Faithful g) (m : Move) : (f.step m).Faithful g := by
  cases m with
  | come q => exact h.come q
  | advance i => exact h.advance i
  | ask q =>
      rw [step_ask]
      exact (((h.come q).advance _).advance _).advance _

theorem Faithful.run {ms : List Move} : ∀ {f : Forum}, f.Faithful g → (f.run ms).Faithful g := by
  induction ms with
  | nil => exact id
  | cons m ms ih => exact fun h => ih (h.step m)

end Forum

/-! ## What a move writes -/

section Writes
variable {g : Graph} {s : Session} {id : SymbolId} {t : Target}

/-- Storing a verdict changes no other slot. -/
theorem Memo.eq_of_find?_store_ne {m : Memo} {id' : SymbolId} {t' : Target} {v : Verdict}
    (h : (m.store id' t' v).1.find? id t ≠ m.find? id t) : id' = id ∧ t' = t := by
  rw [Memo.find?_store] at h
  split at h
  · rename_i hslot
    exact ⟨hslot.1.symm, hslot.2.symm⟩
  · exact absurd rfl h

theorem Caller.Faithful.writes_own {c : Caller} (hc : c.Faithful g)
    (h : (c.advance s).1.memo.find? id t ≠ s.memo.find? id t) :
    c.query.id = id ∧ c.query.target? g = some t := by
  obtain ⟨q, progress⟩ := c
  cases progress with
  | start =>
      rw [Caller.advance] at h
      dsimp only at h
      split at h
      · exact absurd rfl h
      · split at h
        · exact absurd rfl h
        · exact absurd rfl h
  | missed t' => exact absurd rfl h
  | computed t' v =>
      obtain ⟨ht, -⟩ : q.target? g = some t' ∧ v = g.resolve q.id t' := hc
      obtain ⟨hid, rfl⟩ := Memo.eq_of_find?_store_ne h
      exact ⟨hid, ht⟩
  | answered v => exact absurd rfl h

theorem Session.answer_writes_own {q : Query}
    (h : (s.answer q.id q.asked).1.memo.find? id t ≠ s.memo.find? id t) :
    q.id = id ∧ q.target? s.graph = some t := by
  rw [Session.answer_eq] at h
  cases ht : q.target? s.graph with
  | none =>
      rw [ht] at h
      exact absurd rfl h
  | some t' =>
      simp only [ht, Session.resolve] at h
      split at h
      · exact absurd rfl h
      · obtain ⟨hid, rfl⟩ := Memo.eq_of_find?_store_ne h
        exact ⟨hid, rfl⟩

theorem Forum.Faithful.writes_own {f : Forum} (hf : f.Faithful g) {m : Move}
    (h : (f.step m).session.memo.find? id t ≠ f.session.memo.find? id t) :
    ∃ q, f.query? m = some q ∧ q.id = id ∧ q.target? g = some t := by
  cases m with
  | come q => exact absurd rfl h
  | advance i =>
      rw [Forum.step] at h
      split at h
      · exact absurd rfl h
      · rename_i c hi
        obtain ⟨hid, ht⟩ := (hf.callers c (List.mem_of_getElem? hi)).writes_own h
        exact ⟨c.query, by rw [Forum.query?, hi]; rfl, hid, ht⟩
  | ask q =>
      obtain ⟨hid, ht⟩ := Session.answer_writes_own (s := f.session) h
      exact ⟨q, rfl, hid, hf.session.graph ▸ ht⟩

end Writes

namespace Forum

/-- A session that has not been asked anything. -/
def opened (g : Graph) : Forum where
  session := { graph := g }

theorem faithful_opened (g : Graph) : (opened g).Faithful g where
  session := ⟨rfl, fun _ _ _ h => by cases h⟩
  callers _ hc := absurd hc List.not_mem_nil
  filled _ hc := absurd hc List.not_mem_nil

/-- **Memory is invisible.** Whatever callers have done in whatever order, those who have
an answer have the one that the graph gives, and so has anyone who asks next. Every
filled slot holds the verdict on its symbol and its target, and a move writes at most
the slot of its own query. The slot of whoever has an answer is filled with it, and
whatever is done later, a filled slot keeps its verdict. -/
theorem memory_invisible (g : Graph) (ms : List Move) :
    (∀ c ∈ ((opened g).run ms).callers, ∀ v, c.progress = .answered v →
      v = g.answer c.query.id c.query.asked) ∧
    (∀ q : Query, (((opened g).run ms).session.answer q.id q.asked).2 =
      g.answer q.id q.asked) ∧
    (∀ id t v, ((opened g).run ms).session.memo.find? id t = some v → v = g.resolve id t) ∧
    (∀ m id t, (((opened g).run ms).step m).session.memo.find? id t ≠
        ((opened g).run ms).session.memo.find? id t →
      ∃ q, ((opened g).run ms).query? m = some q ∧ q.id = id ∧ q.target? g = some t) ∧
    (∀ c ∈ ((opened g).run ms).callers, ∀ v t, c.progress = .answered v →
      c.query.target? g = some t →
        ((opened g).run ms).session.memo.find? c.query.id t = some v) ∧
    ∀ ms' id t v, ((opened g).run ms).session.memo.find? id t = some v →
      (((opened g).run ms).run ms').session.memo.find? id t = some v := by
  have hfaithful : ((opened g).run ms).Faithful g := (faithful_opened g).run
  refine ⟨fun c hc v hv => ?_, fun q => ?_, hfaithful.session.slots,
    fun m id t h => hfaithful.writes_own h, hfaithful.filled, fun ms' id t v => run_keeps⟩
  · have hcaller := hfaithful.callers c hc
    rwa [Caller.Faithful, hv] at hcaller
  · -- whoever asks next joins the callers
    have hasked := (hfaithful.step (.ask q)).callers
    exact hasked { query := q, progress := .answered _ }
      (List.mem_append_right _ List.mem_cons_self)

/-- A field `p.C.f` that may be null, and users must check. -/
def checkedField : Registry :=
  Registry.run {}
    [ .ensureClass "javax.annotation.CheckForNull", .ensureClass "p.C",
      .member .var "f" (some 3) false, .annotate 4 ⟨1, []⟩ ]

/-- What the annotation of `checkedField` says. -/
def checkForNull : Finding where
  nullability := .strongNullable
  origin := .var
  source := ⟨1, []⟩
  viaMeta := false

/-- Two callers ask for the field, find its slot empty and compute the verdict. The second
stores it first. -/
def race : List Move :=
  [ .come ⟨4, none⟩, .come ⟨4, some .field⟩, .advance 0, .advance 1, .advance 0, .advance 1,
    .advance 1, .advance 0 ]

/-- Both have the answer that the graph gives. -/
theorem race_answers :
    ((opened checkedField.toGraph).run race).callers.map (·.progress) =
      [.answered (checkedField.answer 4 none),
        .answered (checkedField.answer 4 (some .field))] := by
  have hcallers : ((opened checkedField.toGraph).run race).callers =
      [⟨⟨4, none⟩, .answered (.decided checkForNull)⟩,
        ⟨⟨4, some .field⟩, .answered (.decided checkForNull)⟩] := by cbv
  obtain ⟨hanswers, -⟩ := memory_invisible checkedField.toGraph race
  rw [hcallers] at hanswers ⊢
  have hfirst := hanswers ⟨⟨4, none⟩, .answered (.decided checkForNull)⟩ List.mem_cons_self _ rfl
  have hsecond := hanswers ⟨⟨4, some .field⟩, .answered (.decided checkForNull)⟩
    (List.mem_cons_of_mem _ List.mem_cons_self) _ rfl
  rw [← hfirst, ← hsecond]
  rfl

end Forum

end Nullness
