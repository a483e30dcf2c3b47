import Nullness.Proofs.Disk
import Nullness.Proofs.Readback

/-!
# What a run leaves behind

A run that fails leaves every file and the output as they were, whatever it fails at: the
arguments, the input, the endpoint, its exporter or the file for the report. A run that resolves a
graph reads its input once and after that writes once, the whole report to one place. What it
writes depends on the input only. Only the last spans are sent behind that, and only if there is
an endpoint for them.

- `Command.Refusals`, `Command.refusing`: a disk that may refuse to show, to read or to open a
  file, with an exporter that may refuse to begin or to end.
- `Command.Machine.logged`, `Command.run_logged`: the files that a run asks for, in their order.
- `Command.Delivered`: a text is written to one place.
- `Command.run_traceless`: what a run leaves behind.
-/

namespace Nullness

namespace Command

/-! ## Machines -/

/-- What may go wrong beyond what is on the disk: a file does not show, or it cannot be read or
opened, and an exporter cannot be built or cannot send the last spans. -/
structure Refusals where
  hidden : World → String → Bool := fun _ _ => false
  reading : World → String → Option OsError := fun _ _ => none
  opening : World → String → Option OsError := fun _ _ => none
  connecting : String → Except (List String) Unit := fun _ => .ok ()
  disconnecting : Except String Unit := .ok ()

/-- The text that a machine gives for a file. -/
def Refusals.text (r : Refusals) (w : World) (path : String) : Except ReadError String :=
  match r.reading w path with
  | some e => .error (.os e)
  | none => w.disk.text path

/-- The graph in a file, if there is one. -/
def Refusals.graph? (r : Refusals) (w : World) (path : String) : Option Graph :=
  match r.text w path with
  | .error _ => none
  | .ok text => (Graph.ofText text).toOption

/-- There is something to be found. -/
def Refusals.Shows (r : Refusals) (w : World) (path : String) : Prop :=
  r.hidden w path = false ∧ ∃ n, w.disk.find path = .ok n

/-- The place for a text can be opened. -/
def Refusals.Opens (r : Refusals) (w : World) : Sink → Prop
  | .standard => True
  | .file path => r.opening w path = none ∧ ∃ place, w.disk.target path = .ok place

/-- An exporter can be built for the endpoint, if there is one. -/
def Refusals.Connects (r : Refusals) (endpoint : Option String) : Prop :=
  ∀ e ∈ endpoint, r.connecting e = .ok ()

/-- The last spans are sent, if there is an endpoint. -/
def Refusals.Sends (r : Refusals) (endpoint : Option String) : Prop :=
  ∀ _ ∈ endpoint, r.disconnecting = .ok ()

/-- The machine of a disk that may refuse. Whatever is opened can be written. -/
def refusing (r : Refusals) : Machine (StateM World) where
  isThere path := do
    if r.hidden (← get) path then return false
    else diskMachine.isThere path
  read path := return r.text (← get) path
  save sink text := do
    match sink with
    | .standard => diskMachine.save .standard text
    | .file path =>
      match r.opening (← get) path with
      | some e => return .error (.opening e)
      | none => diskMachine.save (.file path) text
  tell := diskMachine.tell
  clock := diskMachine.clock
  connect endpoint := return r.connecting endpoint
  disconnect := return r.disconnecting

/-- What a run asks of files and the output. -/
inductive Access
  | looked (path : String)
  | read (path : String)
  | saved (sink : Sink) (text : String)
deriving DecidableEq, Repr

/-- The same machine with a log. -/
def Machine.logged {m : Type → Type} [Monad m] (M : Machine m) :
    Machine (StateT (List Access) m) where
  isThere path := do
    modify (· ++ [.looked path])
    M.isThere path
  read path := do
    modify (· ++ [.read path])
    M.read path
  save sink text := do
    modify (· ++ [.saved sink text])
    M.save sink text
  tell text := M.tell text
  clock := M.clock
  connect endpoint := M.connect endpoint
  disconnect := M.disconnect

/-! ## Logs change nothing -/

section Erase
variable {m : Type → Type} [Monad m] [LawfulMonad m] {α β : Type}

/-- But for its log, `x` does what `y` does. -/
def Erases (x : StateT (List Access) m α) (y : m α) : Prop :=
  ∀ log, Prod.fst <$> x.run log = y

theorem erases_pure (a : α) : Erases (pure a : StateT (List Access) m α) (pure a) := by
  intro log
  simp

theorem Erases.bind {x : StateT (List Access) m α} {y : m α} {f : α → StateT (List Access) m β}
    {g : α → m β} (h : Erases x y) (hf : ∀ a, Erases (f a) (g a)) :
    Erases (x >>= f) (y >>= g) := by
  intro log
  have hf' : ∀ p : α × List Access, Prod.fst <$> (f p.1).run p.2 = g p.1 := fun p => hf p.1 p.2
  rw [StateT.run_bind, map_bind, ← h log, bind_map_left]
  simp only [hf']

theorem erases_lift (y : m α) : Erases (monadLift y : StateT (List Access) m α) y := by
  intro log
  simp

theorem erases_modify (h : List Access → List Access) :
    Erases (modify h : StateT (List Access) m PUnit) (pure ⟨⟩) := by
  intro log
  simp

theorem Erases.after {x : StateT (List Access) m α} {y : m α} (h : Erases x y)
    (log : List Access → List Access) : Erases (do modify log; x) y := by
  have hbind := (erases_modify (m := m) log).bind fun _ => h
  rwa [pure_bind] at hbind

variable (M : Machine m)

theorem erases_isThere (path : String) : Erases (M.logged.isThere path) (M.isThere path) :=
  (erases_lift _).after _

theorem erases_read (path : String) : Erases (M.logged.read path) (M.read path) :=
  (erases_lift _).after _

theorem erases_save (sink : Sink) (text : String) :
    Erases (M.logged.save sink text) (M.save sink text) :=
  (erases_lift _).after _

theorem erases_tell (text : String) : Erases (M.logged.tell text) (M.tell text) :=
  erases_lift _

theorem erases_clock : Erases M.logged.clock M.clock :=
  erases_lift _

theorem erases_load (path : String) : Erases (load M.logged path) (load M path) := by
  refine (erases_read M path).bind fun result => ?_
  cases result with
  | error e => exact erases_pure _
  | ok text =>
      dsimp only
      cases Graph.ofText text with
      | error e => exact erases_pure _
      | ok g => exact erases_pure _

theorem erases_connect (endpoint : Option String) :
    Erases (connect M.logged endpoint) (connect M endpoint) := by
  cases endpoint with
  | none => exact erases_pure _
  | some e =>
      refine (erases_lift (M.connect e)).bind fun result => ?_
      cases result with
      | error causes => exact erases_pure _
      | ok _ => exact erases_pure _

theorem erases_disconnect (endpoint : Option String) :
    Erases (disconnect M.logged endpoint) (disconnect M endpoint) := by
  cases endpoint with
  | none => exact erases_pure _
  | some e =>
      refine (erases_lift M.disconnect).bind fun result => ?_
      cases result with
      | error cause => exact erases_pure _
      | ok _ => exact erases_pure _

theorem erases_writeReport (o : Options) : Erases (writeReport M.logged o) (writeReport M o) := by
  refine (erases_clock M).bind fun started => (erases_load M o.input).bind fun result => ?_
  cases result with
  | error f => exact erases_pure _
  | ok g =>
  refine (erases_clock M).bind fun loaded => (erases_clock M).bind fun resolved =>
    (erases_save M o.sink _).bind fun saved => ?_
  cases saved with
  | error e => exact erases_pure _
  | ok _ =>
  dsimp only
  split
  · exact (erases_clock M).bind fun done => (erases_tell M _).bind fun _ => erases_pure _
  · exact erases_pure _

theorem erases_resolve (o : Options) : Erases (resolve M.logged o) (resolve M o) := by
  refine (erases_isThere M o.input).bind fun there => ?_
  cases there with
  | false => exact erases_pure _
  | true =>
  cases endpoint? o with
  | error f => exact erases_pure _
  | ok endpoint =>
  refine (erases_connect M endpoint).bind fun connected => ?_
  cases connected with
  | error f => exact erases_pure _
  | ok _ =>
  refine (erases_writeReport M o).bind fun written => ?_
  cases written with
  | error f => exact erases_pure _
  | ok _ => exact erases_disconnect M endpoint

/-- But for the log, a machine with a log does what it does without one. -/
theorem run_logged (args : List String) : Erases (run M.logged args) (run M args) := by
  rw [run, run]
  cases read args with
  | error e => exact (erases_tell M _).bind fun _ => erases_pure 2
  | ok request =>
  cases request with
  | version => exact (erases_save M _ _).bind fun _ => erases_pure 0
  | help => exact (erases_save M _ _).bind fun _ => erases_pure 0
  | resolve o =>
  refine (erases_resolve M o).bind fun result => ?_
  cases result with
  | error f => exact (erases_tell M _).bind fun _ => erases_pure 1
  | ok _ => exact erases_pure 0

end Erase

/-! ## Runs on a disk -/

/-- `w'` comes from `w` by writing a text to one place: behind what was written to the output
before, or as the whole content of one file. All other files are as they were, messages apart. -/
inductive Delivered (w w' : World) (text : String) : Sink → Prop
  | standard (hdisk : w'.disk = w.disk) (houtput : w'.output = w.output ++ text) :
      Delivered w w' text .standard
  | file {path : String} {place : List String} (hplace : w.disk.target path = .ok place)
      (hfile : w'.disk.node? place = some (.file text.toUTF8.toList))
      (hread : w'.disk.text path = .ok text)
      (hothers : ∀ p, p ≠ place → w'.disk.node? p = w.disk.node? p)
      (houtput : w'.output = w.output) : Delivered w w' text (.file path)

/-- Nothing but messages was written. -/
structure Untouched (w w' : World) : Prop where
  disk : w'.disk = w.disk
  output : w'.output = w.output

theorem Untouched.refl (w : World) : Untouched w w :=
  ⟨rfl, rfl⟩

theorem Delivered.of_untouched {w w' w'' : World} {text : String} {sink : Sink}
    (h : Delivered w w' text sink) (hw : Untouched w' w'') : Delivered w w'' text sink := by
  obtain ⟨hdisk, houtput⟩ := hw
  cases h with
  | standard hd ho => exact .standard (hdisk.trans hd) (houtput.trans ho)
  | file hplace hfile hread hothers ho =>
      refine .file hplace ?_ ?_ (fun p hp => ?_) (houtput.trans ho)
      · rw [hdisk, hfile]
      · rw [hdisk, hread]
      · rw [hdisk, hothers p hp]

/-- Started with a log and a world, `x` gives `a` and ends with another log and another world. -/
def Leads {α : Type} (x : StateT (List Access) (StateM World) α) (s : List Access × World) (a : α)
    (s' : List Access × World) : Prop :=
  ((x.run s.1).run s.2).run = ((a, s'.1), s'.2)

/-- Started with a log and a world, `x` ends, and how it ends satisfies `P`. -/
def Ends {α : Type} (x : StateT (List Access) (StateM World) α) (s : List Access × World)
    (P : α → List Access × World → Prop) : Prop :=
  ∃ a s', Leads x s a s' ∧ P a s'

section Leads
variable {α β : Type} {s s' s'' : List Access × World} {a : α} {b : β}
variable {x : StateT (List Access) (StateM World) α}
variable {f : α → StateT (List Access) (StateM World) β}

variable {P : α → List Access × World → Prop} {Q : β → List Access × World → Prop}

theorem leads_pure (a : α) (s : List Access × World) : Leads (pure a) s a s :=
  rfl

theorem ends_pure (h : P a s) : Ends (pure a) s P :=
  ⟨a, s, leads_pure a s, h⟩

theorem Leads.bind (h : Leads x s a s') (hf : Leads (f a) s' b s'') : Leads (x >>= f) s b s'' := by
  have h : ((x.run s.1).run s.2).run = ((a, s'.1), s'.2) := h
  rw [Leads, StateT.run_bind, StateT.run_bind, Id.run_bind, h]
  exact hf

theorem Leads.ends_bind (h : Leads x s a s') (hf : Ends (f a) s' Q) : Ends (x >>= f) s Q := by
  obtain ⟨b, s'', hleads, hq⟩ := hf
  exact ⟨b, s'', h.bind hleads, hq⟩

theorem Ends.bind (h : Ends x s P) (hf : ∀ a s', P a s' → Ends (f a) s' Q) :
    Ends (x >>= f) s Q := by
  obtain ⟨a, s', hleads, hp⟩ := h
  exact hleads.ends_bind (hf a s' hp)

variable (r : Refusals) (log : List Access) (w : World)

theorem leads_tell (text : String) : Leads ((refusing r).logged.tell text) (log, w) ⟨⟩
    (log, { w with messages := w.messages ++ text }) :=
  rfl

theorem leads_clock : Leads (refusing r).logged.clock (log, w) 0 (log, w) :=
  rfl

/-- What a machine does is done by the machine with a log, which notes it first. -/
theorem leads_noted {y : StateM World α} {w' : World} (access : Access)
    (h : (y.run w).run = (a, w')) :
    Leads (do modify (· ++ [access]); (monadLift y : StateT (List Access) (StateM World) α))
      (log, w) a (log ++ [access], w') := by
  have hlift : (((monadLift y : StateT (List Access) (StateM World) α).run (log ++ [access])).run
      w).run = ((a, log ++ [access]), w') := by
    rw [StateT.run_monadLift, monadLift_self, StateT.run_bind, Id.run_bind, h]
    rfl
  exact hlift

/-- A path shows or it does not, and nothing changes. -/
theorem exists_isThere (path : String) : ∃ there,
    (((refusing r).isThere path).run w).run = (there, w) ∧ (there = true ↔ r.Shows w path) := by
  rw [Refusals.Shows]
  simp only [refusing, diskMachine, StateT.run_bind, StateT.run_get, pure_bind]
  by_cases hhidden : r.hidden w path = true
  · rw [if_pos hhidden]
    refine ⟨false, rfl, iff_of_false Bool.false_ne_true fun h => ?_⟩
    rw [hhidden] at h
    cases h.1
  · rw [if_neg hhidden, StateT.run_bind, StateT.run_get, pure_bind]
    dsimp only
    cases w.disk.find path with
    | error e =>
        refine ⟨false, rfl, iff_of_false Bool.false_ne_true ?_⟩
        rintro ⟨-, n, ⟨⟩⟩
    | ok n => exact ⟨true, rfl, iff_of_true rfl ⟨Bool.eq_false_iff.mpr hhidden, n, rfl⟩⟩

theorem leads_isThere (path : String) : ∃ there,
    Leads ((refusing r).logged.isThere path) (log, w) there (log ++ [.looked path], w) ∧
      (there = true ↔ r.Shows w path) := by
  obtain ⟨there, hrun, hshows⟩ := exists_isThere r w path
  exact ⟨there, leads_noted log w _ hrun, hshows⟩

theorem leads_read (path : String) : Leads ((refusing r).logged.read path) (log, w)
    (r.text w path) (log ++ [.read path], w) :=
  rfl

/-- A text is written as a whole, or nothing is. -/
inductive SaveOutcome (r : Refusals) (w : World) (sink : Sink) (text : String) :
    Except SaveError Unit → World → Prop
  | refused (e : SaveError) (hopens : ¬ r.Opens w sink) : SaveOutcome r w sink text (.error e) w
  | delivered {w' : World} (hopens : r.Opens w sink) (h : Delivered w w' text sink) :
      SaveOutcome r w sink text (.ok ()) w'

theorem exists_saveOutcome (sink : Sink) (text : String) : ∃ result w',
    (((refusing r).save sink text).run w).run = (result, w') ∧
      SaveOutcome r w sink text result w' := by
  cases sink with
  | standard =>
      exact ⟨.ok (), { w with output := w.output ++ text }, rfl,
        .delivered trivial (.standard rfl rfl)⟩
  | file path =>
      simp only [refusing, diskMachine, StateT.run_bind, StateT.run_get, pure_bind]
      cases hrefused : r.opening w path with
      | some e =>
          refine ⟨_, w, rfl, .refused _ ?_⟩
          rintro ⟨hopens, -⟩
          rw [hrefused] at hopens
          cases hopens
      | none =>
          dsimp only
          rw [StateT.run_bind, StateT.run_get, pure_bind]
          dsimp only
          cases htarget : w.disk.target path with
          | error e =>
              refine ⟨_, w, rfl, .refused _ ?_⟩
              rintro ⟨-, place, hplace⟩
              rw [htarget] at hplace
              cases hplace
          | ok place =>
              refine ⟨_, _, rfl, .delivered ⟨hrefused, place, htarget⟩ ?_⟩
              exact .file htarget (w.disk.node?_put_self _ _) (Disk.text_put htarget text)
                (fun p hp => Disk.node?_put_of_target htarget hp) rfl

theorem ends_save (sink : Sink) (text : String) :
    Ends ((refusing r).logged.save sink text) (log, w) fun result s' =>
      s'.1 = log ++ [.saved sink text] ∧ SaveOutcome r w sink text result s'.2 := by
  obtain ⟨result, w', hrun, houtcome⟩ := exists_saveOutcome r w sink text
  exact ⟨result, (_, w'), leads_noted log w _ hrun, rfl, houtcome⟩

theorem ends_load (path : String) :
    Ends (load (refusing r).logged path) (log, w) fun result s' =>
      s' = (log ++ [.read path], w) ∧ r.graph? w path = result.toOption := by
  refine (leads_read r log w path).ends_bind ?_
  rw [Refusals.graph?]
  cases r.text w path with
  | error e => exact ends_pure ⟨rfl, rfl⟩
  | ok text =>
  dsimp only
  cases Graph.ofText text with
  | error e => exact ends_pure ⟨rfl, rfl⟩
  | ok g => exact ends_pure ⟨rfl, rfl⟩

theorem leads_connect (endpoint : String) : Leads ((refusing r).logged.connect endpoint) (log, w)
    (r.connecting endpoint) (log, w) :=
  rfl

theorem leads_disconnect :
    Leads (refusing r).logged.disconnect (log, w) (r.disconnecting) (log, w) :=
  rfl

/-- An exporter is built, if there is an endpoint, and nothing changes. -/
theorem exists_connect (endpoint : Option String) : ∃ result,
    Leads (connect (refusing r).logged endpoint) (log, w) result (log, w) ∧
      (result = .ok () ↔ r.Connects endpoint) := by
  cases endpoint with
  | none => exact ⟨.ok (), leads_pure _ _, iff_of_true rfl nofun⟩
  | some e =>
      have hleads := leads_connect r log w e
      cases hconnecting : r.connecting e with
      | ok _ =>
          rw [hconnecting] at hleads
          refine ⟨.ok (), hleads.bind (leads_pure _ _), iff_of_true rfl fun e' he => ?_⟩
          rw [← Option.some.inj he, hconnecting]
      | error causes =>
          rw [hconnecting] at hleads
          refine ⟨_, hleads.bind (leads_pure _ _), iff_of_false nofun fun h => ?_⟩
          rw [h e rfl] at hconnecting
          cases hconnecting

/-- The last spans are sent, if there is an endpoint, and nothing else changes. -/
theorem exists_disconnect (endpoint : Option String) : ∃ result,
    Leads (disconnect (refusing r).logged endpoint) (log, w) result (log, w) ∧
      (result = .ok () ↔ r.Sends endpoint) := by
  cases endpoint with
  | none => exact ⟨.ok (), leads_pure _ _, iff_of_true rfl nofun⟩
  | some e =>
      have hleads := leads_disconnect r log w
      cases hdisconnecting : r.disconnecting with
      | ok _ =>
          rw [hdisconnecting] at hleads
          refine ⟨.ok (), hleads.bind (leads_pure _ _), iff_of_true rfl fun _ _ => ?_⟩
          rw [hdisconnecting]
      | error cause =>
          rw [hdisconnecting] at hleads
          refine ⟨_, hleads.bind (leads_pure _ _), iff_of_false nofun fun h => ?_⟩
          rw [h e rfl] at hdisconnecting
          cases hdisconnecting

/-- A graph is resolved and its report is written, or nothing is written. -/
inductive Written (r : Refusals) (log : List Access) (w : World) (o : Options) :
    Except Failure Unit → List Access × World → Prop
  | failed (f : Failure) {s' : List Access × World}
      (hnot : ¬ ((r.graph? w o.input).isSome = true ∧ r.Opens w o.sink))
      (h : Untouched w s'.2) : Written r log w o (.error f) s'
  | written {g : Graph} {w' : World} (hgraph : r.graph? w o.input = some g)
      (hopens : r.Opens w o.sink) (h : Delivered w w' g.report.text o.sink) :
      Written r log w o (.ok ()) (log ++ [.read o.input, .saved o.sink g.report.text], w')

theorem ends_writeReport (o : Options) :
    Ends (writeReport (refusing r).logged o) (log, w) (Written r log w o) := by
  refine (leads_clock r _ w).ends_bind ((ends_load r _ w o.input).bind ?_)
  rintro result _ ⟨rfl, hload⟩
  cases result with
  | error f =>
      refine ends_pure (.failed f (fun h => ?_) (.refl w))
      have hgraph := h.1
      rw [hload] at hgraph
      cases hgraph
  | ok g =>
  refine (leads_clock r _ w).ends_bind ((leads_clock r _ w).ends_bind
    ((ends_save r _ w o.sink _).bind ?_))
  rintro saved ⟨log', w'⟩ ⟨rfl, hsaved⟩
  cases hsaved with
  | refused e hnot => exact ends_pure (.failed _ (fun h => hnot h.2) (.refl _))
  | delivered hopens hdelivered =>
  rw [List.append_assoc]
  dsimp only
  split
  · refine (leads_clock r _ w').ends_bind ((leads_tell r _ w' _).ends_bind (ends_pure ?_))
    exact .written hload hopens (hdelivered.of_untouched ⟨rfl, rfl⟩)
  · exact ends_pure (.written hload hopens hdelivered)

/-- Nothing stands in the way of a report: the input shows and holds a graph, the endpoint is
one that spans can be sent to, and the place for the report can be opened. -/
structure Ready (r : Refusals) (w : World) (o : Options) : Prop where
  shows_input : r.Shows w o.input
  endpoint : ∃ endpoint, endpoint? o = .ok endpoint ∧ r.Connects endpoint
  graph : (r.graph? w o.input).isSome = true
  sink : r.Opens w o.sink

/-- A graph is resolved and its report is written, or nothing is written. Behind that, only the
last spans may fail to be sent. -/
inductive Outcome (r : Refusals) (w : World) (o : Options) :
    Except Failure Unit → List Access × World → Prop
  | failed (f : Failure) {s' : List Access × World} (hnot : ¬ Ready r w o)
      (h : Untouched w s'.2) : Outcome r w o (.error f) s'
  | resolved {result : Except Failure Unit} {endpoint : Option String} {g : Graph} {w' : World}
      (hready : Ready r w o) (hendpoint : endpoint? o = .ok endpoint)
      (hresult : result = .ok () ↔ r.Sends endpoint)
      (hgraph : r.graph? w o.input = some g) (h : Delivered w w' g.report.text o.sink) :
      Outcome r w o result
        ([.looked o.input, .read o.input, .saved o.sink g.report.text], w')

theorem ends_resolve (o : Options) :
    Ends (resolve (refusing r).logged o) ([], w) (Outcome r w o) := by
  obtain ⟨there, hthere, hshows⟩ := leads_isThere r [] w o.input
  refine hthere.ends_bind ?_
  cases there with
  | false => exact ends_pure (.failed _ (fun h => nomatch hshows.mpr h.shows_input) (.refl w))
  | true =>
  cases hendpoint : endpoint? o with
  | error f =>
      refine ends_pure (.failed f (fun h => ?_) (.refl w))
      obtain ⟨endpoint, hok, -⟩ := h.endpoint
      rw [hendpoint] at hok
      cases hok
  | ok endpoint =>
  obtain ⟨connected, hleads, hconnects⟩ := exists_connect r [.looked o.input] w endpoint
  refine hleads.ends_bind ?_
  cases connected with
  | error f =>
      refine ends_pure (.failed f (fun h => ?_) (.refl w))
      obtain ⟨endpoint', hok, hconnects'⟩ := h.endpoint
      rw [hendpoint] at hok
      cases hok
      exact nomatch hconnects.mpr hconnects'
  | ok _ =>
  refine (ends_writeReport r _ w o).bind ?_
  rintro _ _ (⟨f, hnot, huntouched⟩ | ⟨hgraph, hopens, hdelivered⟩)
  · exact ends_pure (.failed f (fun h => hnot ⟨h.graph, h.sink⟩) huntouched)
  · rename_i g w'
    obtain ⟨result, hleads', hresult⟩ := exists_disconnect r
      ([.looked o.input] ++ [.read o.input, .saved o.sink g.report.text]) w' endpoint
    have hready : Ready r w o :=
      ⟨hshows.mp rfl, ⟨endpoint, hendpoint, hconnects.mp rfl⟩, by rw [hgraph]; rfl, hopens⟩
    exact ⟨result, _, hleads', .resolved hready hendpoint hresult hgraph hdelivered⟩

/-- The report of a graph that a run resolves is written. The input is read before the place for
the report is opened, and the text depends on nothing but the input. Read as JSON, it tells all
that is reported of the graph, if the graph fits the words of the machine. -/
structure Reported (r : Refusals) (w : World) (o : Options) (s' : List Access × World) (g : Graph) :
    Prop where
  graph : r.graph? w o.input = some g
  delivered : Delivered w s'.2 g.report.text o.sink
  log : s'.1 = [.looked o.input, .read o.input, .saved o.sink g.report.text]
  readsBack : g.size ≤ Json.greatestUnsigned → g.report.ReadsBack g.report.json

theorem reported_of_delivered {o : Options} {g : Graph} {w' : World}
    (hgraph : r.graph? w o.input = some g) (h : Delivered w w' g.report.text o.sink) :
    Reported r w o ([.looked o.input, .read o.input, .saved o.sink g.report.text], w') g := by
  refine ⟨hgraph, h, rfl, fun hsize => Report.readsBack (Graph.Fits.report ?_)⟩
  rw [Refusals.graph?] at hgraph
  split at hgraph
  · cases hgraph
  · next text _ =>
    cases hload : Graph.ofText text with
    | error e =>
        rw [hload] at hgraph
        cases hgraph
    | ok g' =>
        rw [hload] at hgraph
        cases hgraph
        exact Graph.fits_of_ofText hload hsize

/-- What a run leaves behind that ends with an exit code: nothing if it fails, unless that is
because the last spans are not sent, and the whole report in one place if it resolves a graph,
which it does if nothing stands in its way. -/
structure Tidy (r : Refusals) (w : World) (args : List String) (code : Nat)
    (s' : List Access × World) : Prop where
  failed : code ≠ 0 →
    (∀ o e, Command.read args = .ok (.resolve o) → endpoint? o ≠ .ok (some e)) → Untouched w s'.2
  unsent : code ≠ 0 → Untouched w s'.2 ∨
    ∃ o endpoint g, Command.read args = .ok (.resolve o) ∧ endpoint? o = .ok endpoint ∧
      ¬ r.Sends endpoint ∧ Reported r w o s' g
  ready : ∀ o, Command.read args = .ok (.resolve o) → (code = 0 ↔ Ready r w o ∧
    ∀ endpoint, endpoint? o = .ok endpoint → r.Sends endpoint)
  resolved : ∀ o, Command.read args = .ok (.resolve o) → code = 0 →
    ∃ g, Reported r w o s' g

theorem tidy_of_not_resolve {args : List String} {code : Nat} {s' : List Access × World}
    (hread : ∀ o, Command.read args ≠ .ok (.resolve o)) (h : code ≠ 0 → Untouched w s'.2) :
    Tidy r w args code s' :=
  ⟨fun hcode _ => h hcode, fun hcode => .inl (h hcode), fun o ho => absurd ho (hread o),
    fun o ho => absurd ho (hread o)⟩

/-- A run that fails before the report is written. -/
theorem tidy_of_not_ready {args : List String} {o : Options} {s' : List Access × World}
    (hread : Command.read args = .ok (.resolve o)) (hnot : ¬ Ready r w o)
    (h : Untouched w s'.2) : Tidy r w args 1 s' := by
  refine ⟨fun _ _ => h, fun _ => .inl h, fun o' ho => ?_, nofun⟩
  rw [hread] at ho
  cases ho
  exact iff_of_false nofun fun h => hnot h.1

/-- A run that writes the report, and fails if the last spans are not sent. -/
theorem tidy_of_reported {args : List String} {o : Options} {endpoint : Option String}
    {g : Graph} {code : Nat} {s' : List Access × World}
    (hread : Command.read args = .ok (.resolve o)) (hready : Ready r w o)
    (hendpoint : endpoint? o = .ok endpoint) (hcode : code = 0 ↔ r.Sends endpoint)
    (h : Reported r w o s' g) : Tidy r w args code s' := by
  refine ⟨fun hne hnone => ?_, fun hne => ?_, fun o' ho => ?_, fun o' ho _ => ?_⟩
  · refine absurd (hcode.mpr fun e he => ?_) hne
    rw [Option.mem_def.mp he] at hendpoint
    exact absurd hendpoint (hnone o e hread)
  · exact .inr ⟨o, endpoint, g, hread, hendpoint, fun hsends => hne (hcode.mpr hsends), h⟩
  · rw [hread] at ho
    cases ho
    refine hcode.trans ⟨fun hsends => ⟨hready, fun endpoint' he => ?_⟩, fun h => h.2 _ hendpoint⟩
    rw [hendpoint] at he
    cases he
    exact hsends
  · rw [hread] at ho
    cases ho
    exact ⟨g, h⟩

theorem ends_run (args : List String) :
    Ends (run (refusing r).logged args) ([], w) (Tidy r w args) := by
  rw [run]
  cases hread : Command.read args with
  | error e =>
      refine (leads_tell r _ w _).ends_bind (ends_pure ?_)
      exact tidy_of_not_resolve r w (by simp [hread]) fun _ => ⟨rfl, rfl⟩
  | ok request =>
  cases request with
  | version =>
      refine (ends_save r _ w _ _).bind fun _ _ _ => ends_pure ?_
      exact tidy_of_not_resolve r w (by simp [hread]) fun hcode => absurd rfl hcode
  | help =>
      refine (ends_save r _ w _ _).bind fun _ _ _ => ends_pure ?_
      exact tidy_of_not_resolve r w (by simp [hread]) fun hcode => absurd rfl hcode
  | resolve o =>
  refine (ends_resolve r w o).bind ?_
  rintro result s' (⟨f, hnot, hf⟩ | ⟨hready, hendpoint, hresult, hgraph, hdelivered⟩)
  · refine (leads_tell r _ _ _).ends_bind (ends_pure ?_)
    exact tidy_of_not_ready r w hread hnot ⟨hf.disk, hf.output⟩
  · cases result with
    | error f =>
        refine (leads_tell r _ _ _).ends_bind (ends_pure ?_)
        exact tidy_of_reported r w hread hready hendpoint
          (iff_of_false nofun fun hsends => nomatch hresult.mpr hsends)
          (reported_of_delivered r w hgraph (hdelivered.of_untouched ⟨rfl, rfl⟩))
    | ok _ =>
        refine ends_pure (tidy_of_reported r w hread hready hendpoint
          (iff_of_true rfl (hresult.mp rfl)) (reported_of_delivered r w hgraph hdelivered))

end Leads

/-- A disk that refuses nothing. -/
theorem refusing_nothing : refusing {} = diskMachine := by
  have hsave : (refusing {}).save = diskMachine.save := by
    funext sink text
    cases sink <;> rfl
  have hfields : refusing {} = { diskMachine with save := (refusing {}).save } := rfl
  rw [hfields, hsave]

/-- **Runs leave no trace but the report.** Whatever files there are, whatever is refused and
whatever the arguments say, as long as they name no endpoint that can be parsed: a run that fails
leaves the files and the output as they were. With an endpoint it may also fail because the last
spans are not sent, and then its report is written. A run that resolves a graph and succeeds first
reads the input and then writes the whole report, to the output or as the content of the one file
that is named, which may be the input itself. All other files are as they were. The report depends
on the input only, and not on where it goes or on what is said beside it, and what is written tells
all of it. -/
theorem run_traceless (r : Refusals) (w : World) (args : List String) :
    ∃ code log w', ((run (refusing r) args).run w).run = (code, w') ∧
      Leads (run (refusing r).logged args) ([], w) code (log, w') ∧
      Tidy r w args code (log, w') := by
  obtain ⟨code, ⟨log, w'⟩, hleads, htidy⟩ := ends_run r w args
  refine ⟨code, log, w', ?_, hleads, htidy⟩
  have hleads' : (((run (refusing r).logged args).run []).run w).run = ((code, log), w') := hleads
  rw [← run_logged (refusing r) args [], StateT.run_map, Id.run_map, hleads']

/-- A graph with one field. -/
def fieldText : String :=
  "\x7b\"symbols\":[[\"C\",\"class\",\"C\"],[\"f\",\"variable\",\"f\",\"C\"]]\x7d"

/-- The graph is in a file, and beside it there is a directory. -/
def twoNodes : World where
  disk := ⟨[(["g"], .file fieldText.toUTF8.toList), (["d"], .directory)]⟩

/-- Names without a slash are whole paths. -/
theorem splitOn_names : "g".splitOn "/" = ["g"] ∧ "d".splitOn "/" = ["d"] := by
  constructor
  · rw [String.splitOn, if_neg (by decide), String.splitOnAux]
    simp +decide [String.splitOnAux]
  · rw [String.splitOn, if_neg (by decide), String.splitOnAux]
    simp +decide [String.splitOnAux]

theorem place_names :
    twoNodes.disk.place "g" = .ok ["g"] ∧ twoNodes.disk.place "d" = .ok ["d"] := by
  have hroot : twoNodes.disk.node? [] = some .directory := rfl
  constructor
  · simp +decide [Disk.place, Disk.names, splitOn_names.1, Disk.follow, hroot]
  · simp +decide [Disk.place, Disk.names, splitOn_names.2, Disk.follow, hroot]

theorem target_g : twoNodes.disk.target "g" = .ok ["g"] := by
  have hbare : Disk.withoutSlashes "g" = "g" := by decide
  have hnode : twoNodes.disk.node? ["g"] ≠ some .directory := nofun
  simp [Disk.target, hbare, place_names.1, hnode]

/-- The options of runs whose input is the file. -/
def optionsTo (output : String) : Options :=
  { input := "g", output := some output }

theorem sink_names : (optionsTo "g").sink = .file "g" ∧ (optionsTo "d").sink = .file "d" := by
  constructor
  · simp +decide [Options.sink, optionsTo, pathNames, splitOn_names.1]
  · simp +decide [Options.sink, optionsTo, pathNames, splitOn_names.2]

theorem ready_g : Ready {} twoNodes (optionsTo "g") := by
  have hfind : twoNodes.disk.find "g" = .ok (.file fieldText.toUTF8.toList) := by
    rw [Disk.find, place_names.1]
    rfl
  have htext : Refusals.text {} twoNodes "g" = .ok fieldText := by
    simp only [Refusals.text, Disk.text, hfind, Text.fromUTF8?_toUTF8]
  have hgraph : (Graph.ofText fieldText).toOption.isSome = true := by decide +kernel
  constructor
  · exact ⟨rfl, _, hfind⟩
  · exact ⟨none, rfl, fun e he => absurd he (Option.not_mem_none e)⟩
  · show (Refusals.graph? {} twoNodes "g").isSome = true
    rw [Refusals.graph?, htext]
    exact hgraph
  · rw [sink_names.1]
    exact ⟨rfl, _, target_g⟩

theorem not_ready_d : ¬ Ready {} twoNodes (optionsTo "d") := by
  intro h
  have hopens := h.sink
  rw [sink_names.2] at hopens
  obtain ⟨-, place, htarget⟩ := hopens
  obtain ⟨hplace, hfile⟩ := Disk.place_of_target htarget
  rw [place_names.2] at hplace
  cases hplace
  exact hfile rfl

/-- The command line that leads to these options. -/
def argumentsTo (output : String) : List String :=
  ["--input", "g", "--output", output]

theorem eq_ok_of_toOption {ε α : Type} {x : Except ε α} {a : α} (h : x.toOption = some a) :
    x = .ok a := by
  cases x with
  | error e => cases h
  | ok b =>
      cases h
      rfl

theorem read_argumentsTo : Command.read (argumentsTo "g") = .ok (.resolve (optionsTo "g")) ∧
    Command.read (argumentsTo "d") = .ok (.resolve (optionsTo "d")) := by
  constructor
  · exact eq_ok_of_toOption (by decide +kernel)
  · exact eq_ok_of_toOption (by decide +kernel)

/-- There is no endpoint. -/
theorem endpoint?_optionsTo (output : String) : endpoint? (optionsTo output) = .ok none :=
  rfl

/-- The report takes the place of the graph, and it does not take the place of the directory. -/
theorem run_traceless_twoNodes :
    (∃ g w', ((run (refusing {}) (argumentsTo "g")).run twoNodes).run = (0, w') ∧
      Refusals.graph? {} twoNodes "g" = some g ∧ w'.disk.text "g" = .ok g.report.text ∧
      w'.disk.node? ["d"] = some .directory ∧ w'.output = twoNodes.output) ∧
    ∃ code w', ((run (refusing {}) (argumentsTo "d")).run twoNodes).run = (code, w') ∧
      code ≠ 0 ∧ Untouched twoNodes w' := by
  constructor
  · obtain ⟨code, log, w', hrun, -, htidy⟩ := run_traceless {} twoNodes (argumentsTo "g")
    have hcode : code = 0 :=
      (htidy.ready _ read_argumentsTo.1).mpr ⟨ready_g, fun _ _ _ _ => rfl⟩
    obtain ⟨g, hreported⟩ := htidy.resolved _ read_argumentsTo.1 hcode
    have hdelivered := hreported.delivered
    rw [sink_names.1] at hdelivered
    cases hdelivered with
    | @file _ place hplace _ hafter hothers houtput =>
        rw [target_g] at hplace
        cases hplace
        refine ⟨g, w', hcode ▸ hrun, hreported.graph, hafter, ?_, houtput⟩
        rw [hothers ["d"] (by decide)]
        rfl
  · obtain ⟨code, log, w', hrun, -, htidy⟩ := run_traceless {} twoNodes (argumentsTo "d")
    have hcode : code ≠ 0 := fun h => not_ready_d ((htidy.ready _ read_argumentsTo.2).mp h).1
    refine ⟨code, w', hrun, hcode, htidy.failed hcode fun o e hread => ?_⟩
    rw [read_argumentsTo.2] at hread
    cases hread
    rw [endpoint?_optionsTo]
    nofun

end Command

end Nullness
