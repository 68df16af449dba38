import DatabaseSession.Proofs.Stops
import DatabaseSession.Proofs.Patience
import DatabaseSession.Rehearsal.Cast

namespace DatabaseSession

namespace Task

variable {ω : Type}

def Closed (s : Session ω) : Prop := s.active.courier.terminal.isSome = true

theorem emit_closes (p : Parties ω) {state : Progress} (hstate : state.isTerminal = true)
    (message : Option String) (data : Option EventData) (error : Option ErrorReport)
    (s : Session (Log × ω)) : Closed (emit p.logged state message data error s).2 := by
  cases hterm : s.active.courier.terminal with
  | some st =>
    rw [emit_closed _ _ _ _ _ s (by simp [hterm])]
    simp [Closed, hterm]
  | none =>
    obtain ⟨new, x, s', hr, -, hterm', -, -⟩ := emit_sends p state message data error s hterm
    rw [hr]
    simp [Closed, hterm', hstate]

theorem endInError_closes (p : Parties ω) (e : Error) (s : Session (Log × ω)) :
    Closed (endInError p.logged e s).2 := by
  cases hterm : s.active.courier.terminal with
  | some st =>
    rw [endInError_closed _ e s (by simp [hterm])]
    simp [Closed, hterm]
  | none =>
    obtain ⟨new, x, s', hr, -, -, hterm', -⟩ := endInError_sends p e s hterm
    rw [hr]
    simp [Closed, hterm']

end Task

namespace Query

open Run

variable {ω : Type}

theorem leaves_endWell (p : Parties ω) (chunk : Chunk) (value : Option Json) :
    Leaves Task.Closed (endWell p.logged chunk value) :=
  leaves_of_forall (Task.emit_closes p rfl _ _ none)

theorem leaves_readSets (p : Parties ω) (q : Query) (sql : String) (started patience : Nat) :
    Leaves Task.Closed (readSets p.logged q sql true started patience) := by
  induction patience with
  | zero => exact leaves_hang
  | succ patience ih =>
    rw [readSets_succ]
    refine leaves_bind fun (columns, r, stats, more) => leaves_bind fun t => ?_
    cases more with
    | true => exact leaves_bind fun _ => ih
    | false => exact leaves_bind_pure (leaves_endWell p _ _) ()

theorem leaves_attemptStatement (p : Parties ω) (q : Query) (sql : String) :
    Leaves Task.Closed (attemptStatement p.logged q sql true) :=
  leaves_bind fun started => leaves_bind fun _ => leaves_readSets p q sql started _

theorem leaves_afterFailure {p : Parties ω} (sql : String) (e : Error)
    (again : Option (Run (Log × ω) Unit)) (h : ∀ retry ∈ again, Leaves Task.Closed retry) :
    Leaves Task.Closed (afterFailure p.logged sql e again) := by
  refine leaves_bind fun s => ?_
  split
  · exact leaves_raise _
  · cases again with
    | none => exact leaves_raise e
    | some retry =>
      dsimp only
      split
      · refine leaves_bind fun back => ?_
        split
        · exact h retry rfl
        · exact leaves_raise e
      · exact leaves_raise e

theorem leaves_runWithRetries (p : Parties ω) (q : Query) (sql : String) (retries : Nat) :
    Leaves Task.Closed (runWithRetries p.logged q sql true retries) := by
  have hm := leaves_attemptStatement p q sql
  induction retries with
  | zero => exact leaves_attempt_bind hm rfl fun e => leaves_afterFailure sql e none (by simp)
  | succ retries ih =>
    exact leaves_attempt_bind hm rfl fun e => leaves_afterFailure sql e _ (by simpa using ih)

theorem leaves_runStatements (p : Parties ω) (q : Query) (sql : String) (rest : List String) :
    Leaves Task.Closed (runStatements p.logged q (sql :: rest)) := by
  induction rest generalizing sql with
  | nil =>
    refine leaves_bind fun _ => leaves_bind fun s => ?_
    exact leaves_bind_pure (leaves_runWithRetries p q sql _) ()
  | cons sql' rest ih =>
    exact leaves_bind fun _ => leaves_bind fun s => leaves_bind fun _ => ih sql'

/-- A query that comes back without an error has ended its task. -/
theorem leaves_run (p : Parties ω) (q : Query) : Leaves Task.Closed (q.run p.logged) := by
  unfold run
  cases hq : q.statements with
  | nil => exact leaves_endWell p { executionTime := some (Binary64.ofInt 0), done := true } none
  | cons sql rest => exact leaves_runStatements p q sql rest

end Query

namespace Task

open Run

variable {ω α : Type}

theorem leaves_pursue (p : Parties ω) (started : Nat) {w : Work} (hw : w.isBuiltIn = true) :
    Leaves Closed (pursue p.logged started w) := by
  have herr : ∀ e, Leaves Closed (endInError p.logged e) := fun e =>
    leaves_of_forall (endInError_closes p e)
  cases w with
  | query q =>
    intro s a s' h
    rw [pursue, conclude, bind_apply, attempt] at h
    rcases hrun : q.run p.logged s with ⟨(e | _ | _) | _, s₁⟩ <;> rw [hrun] at h
    · exact leaves_bind (fun _ => herr e) s₁ a s' h
    · cases h
    · cases h
    · -- the clock stops after the closing event, which is final
      have hc := Query.leaves_run p q s () s₁ hrun
      cases h
      exact hc
  | schema action =>
    refine leaves_bind fun r => leaves_bind fun _ => ?_
    cases r with
    | ok schema => exact leaves_of_forall (emit_closes p rfl _ _ none)
    | error e => exact herr e
  | custom key => simp [Work.isBuiltIn] at hw

/-- Events in these states are sent and reported; of what does not come back, it is known why. -/
def serving (A : Progress → Prop) (p : Parties ω) : Course (Log × ω) :=
  (sending A).both (awaiting ω p.patience p.patience)

/-- Neither a run nor a failure cancels a task. -/
def Uncancelled (state : Progress) : Prop := state ≠ .cancelled

theorem serving_pursue (p : Parties ω) (started : Nat) (w : Work) :
    Follows (serving Uncancelled p) (pursue p.logged started w) := by
  have hs := sending_covers Uncancelled p fun _ h => h
  refine follows_both (follows_pursue hs (fun q => ?_) started w)
    (follows_pursue (awaiting_covers p _ _) (Query.awaiting_run p) started w)
  exact Query.follows_run hs q fun sql last started =>
    Query.follows_readSets hs.toReading (fun _ => trivial) q sql last started _

theorem serving_endInError (p : Parties ω) (e : Error) :
    Follows (serving Uncancelled p) (endInError p.logged e) :=
  follows_both (sending_endInError _ p (by simp [Uncancelled]) e)
    ((awaiting_covers p _ _).endsInError e)

theorem serving_announce (A : Progress → Prop) (p : Parties ω) (phase : Milestone)
    (requestId : Option String) :
    Follows (serving A p) (announce p.logged phase requestId) :=
  follows_announce fun _ _ m =>
    follows_both (sending_permits A p rfl m) (awaiting_permits p _ _ _ m)

/-- The only event of a task that was cancelled before it began. -/
def cancelEvent (requestId : Option String) : Event := ⟨requestId, .cancelled, none, none, none⟩

/-- All the events of a task, the last one of which closes it. -/
inductive Whole (requestId : Option String) : Bool → List Event → Event → Prop where
  | cancelled : Whole requestId true [cancelEvent requestId] (cancelEvent requestId)
  | ran (middle : List Event) (closing : Event) (hmiddle : ∀ e ∈ middle, e.state = .pending)
      (hclosing : closing.state = .ok ∨ closing.state = .error) :
      Whole requestId false (startEvent requestId :: (middle ++ [closing])) closing

theorem Whole.exists_init {requestId : Option String} {cancelled : Bool} {events : List Event}
    {closing : Event} (h : Whole requestId cancelled events closing) :
    ∃ init, events = init ++ [closing] ∧ (∀ e ∈ init, e.state = .pending) ∧
      closing.state.isTerminal = true := by
  cases h with
  | cancelled => exact ⟨[], rfl, by simp, rfl⟩
  | ran middle closing hmiddle hclosing =>
    refine ⟨startEvent requestId :: middle, rfl, ?_, ?_⟩
    · simpa [startEvent] using hmiddle
    · rcases hclosing with h | h <;> rw [h] <;> rfl

/-- From two states of which it is known what was sent in between, to what a task sends in all. -/
theorem whole_of_goes {s s₁ s₂ : Session (Log × ω)} {new : Log}
    (hstart : Sends new [startEvent s.active.courier.requestId] s s₁)
    (hreport : Reports [startEvent s.active.courier.requestId] s s₁)
    (hopen : s₁.active.courier.terminal = none) (hrest : (sending Uncancelled).Goes s₁ s₂)
    (hclosed : Closed s₂) :
    ∃ new events closing, Sends new events s s₂ ∧ Reports events s s₂ ∧
      Whole s.active.courier.requestId false events closing := by
  obtain ⟨new', es, hs, hr, hA⟩ := hrest
  obtain ⟨init, last, rfl, hinit, -, hterm⟩ := hs.states.exists_closing hopen hclosed
  refine ⟨_, _, last, hstart.append hs, hreport.append hr, .ran init last hinit ?_⟩
  have hlast := hA last (by simp)
  cases hst : last.state with
  | pending => simp [hst, Progress.isTerminal] at hterm
  | ok => exact .inl rfl
  | error => exact .inr rfl
  | cancelled => exact absurd hst hlast

theorem account_builtIn (p : Parties ω) (s : Session ω) (h : s.active.work.isBuiltIn = true) :
    account p s =
      (.ok (), { s with stats := LastRunStats.ofRun s.active.stats, statsHeld := false }) := by
  unfold account
  rw [bind_apply, onPanic, report, get_bind_apply]
  cases hw : s.active.work with
  | query q => rfl
  | schema action => rfl
  | custom key => simp [hw, Work.isBuiltIn] at h

theorem fail_builtIn (p : Parties ω) (e : Error) (s : Session ω)
    (h : s.active.work.isBuiltIn = true) : fail p e s = endInError p e s := by
  unfold fail
  rw [get_bind_apply]
  cases hw : s.active.work with
  | query q => rfl
  | schema action => rfl
  | custom key => simp [hw, Work.isBuiltIn] at h

def reportCancelled (s : Session ω) : Session ω :=
  { s with active := { s.active with stats := { s.active.stats with cancelled := true } } }

theorem cancel_builtIn (p : Parties ω) (s : Session ω) (h : s.active.work.isBuiltIn = true) :
    cancel p s = emit p .cancelled none none none (reportCancelled s) := by
  unfold cancel
  rw [get_bind_apply]
  cases hw : s.active.work with
  | query q => rfl
  | schema action => rfl
  | custom key => simp [hw, Work.isBuiltIn] at h

theorem undertake_apply (p : Parties ω) (cancelled : Bool) (s : Session ω) :
    undertake p cancelled s = match (if cancelled then cancel p else execute p) s with
      | (.error (.panic q), s') => shielded (fail p (panicError q)) s'
      | r => r := by
  unfold undertake
  rw [bind_apply, guarded]
  rcases (if cancelled then cancel p else execute p) s with ⟨(e | q | _) | _, s'⟩ <;> rfl

/-- A task that comes back has sent all its events; else it is known why it does not. -/
def Completed (p : Parties ω) (cancelled : Bool) (s : Session (Log × ω))
    (r : Except Stop Unit × Session (Log × ω)) : Prop :=
  (∃ s', r = (.error .hang, s') ∧ (awaiting ω p.patience p.patience).Sticks s s') ∨
    ∃ s', r = (.ok (), s') ∧ (awaiting ω p.patience p.patience).Goes s s' ∧
      ∃ new events closing, Sends new events s s' ∧ Reports events s s' ∧
        Whole s.active.courier.requestId cancelled events closing

theorem undertake_cancelled (p : Parties ω) (s : Session (Log × ω))
    (hwork : s.active.work.isBuiltIn = true) (hopen : s.active.courier.terminal = none) :
    Completed p true s (undertake p.logged true s) := by
  rw [undertake_apply, if_pos rfl, cancel_builtIn _ s hwork]
  obtain ⟨new, x, s₁, hr, hs, hterm, hstats, hx⟩ := emit_sends p .cancelled none none none
    (reportCancelled s) hopen
  have hwait := awaiting_emit p p.patience p.patience .cancelled none none none (reportCancelled s)
  rw [hr] at hwait ⊢
  have hsent : ∃ new events closing, Sends new events s s₁ ∧ Reports events s s₁ ∧
      Whole s.active.courier.requestId true events closing :=
    ⟨new, _, _, ⟨hs.log, hs.work, hs.requestId, hs.sink, hs.tracker, hs.recorded, hs.states,
      hs.ids, hs.delivered, hs.tracked⟩, ⟨by simp [hstats, reportCancelled],
        by simp [hstats, reportCancelled], by simp⟩, .cancelled⟩
  rcases x with (e | q | _) | _
  · exact absurd rfl (hx e)
  · -- the sink panicked at the event, which has closed the task all the same
    have hw₁ : s₁.active.work.isBuiltIn = true := by rw [hs.work]; exact hwork
    have hc₁ : s₁.active.courier.terminal.isSome = true := by simp [hterm, Progress.isTerminal]
    dsimp only
    rw [shielded_apply, fail_builtIn _ _ s₁ hw₁, endInError_closed _ _ s₁ hc₁]
    exact .inr ⟨_, rfl, hwait, hsent⟩
  · exact .inl ⟨_, rfl, hwait⟩
  · exact .inr ⟨_, rfl, hwait, hsent⟩

theorem undertake_run (p : Parties ω) (s : Session (Log × ω))
    (hwork : s.active.work.isBuiltIn = true) (hopen : s.active.courier.terminal = none) :
    Completed p false s (undertake p.logged false s) := by
  obtain ⟨new, x, s₁, hr, hs, hterm, hstats, hx⟩ :=
    emit_sends p .pending (some startedMessage) none none s hopen
  have hwait := awaiting_emit p p.patience p.patience .pending (some startedMessage) none none s
  rw [hr] at hwait
  have hreport : Reports [startEvent s.active.courier.requestId] s s₁ :=
    ⟨by simp [hstats, startEvent], by simp [hstats, startEvent], by simp [startEvent]⟩
  -- a panic anywhere after the first event
  have hfail : ∀ (q : Panic) (s₂ : Session (Log × ω)), (serving Uncancelled p).Goes s₁ s₂ →
      (awaiting ω p.patience p.patience).Goes s s₁ →
      Completed p false s (shielded (fail p.logged (panicError q)) s₂) := by
    intro q s₂ hgoes hfirst
    have hw₂ : s₂.active.work.isBuiltIn = true := by
      obtain ⟨_, _, hs₂, _⟩ := hgoes.1
      rw [hs₂.work, hs.work]
      exact hwork
    have hend := serving_endInError p (panicError q) s₂
    have hclosed := endInError_closes p (panicError q) s₂
    rw [shielded_apply, fail_builtIn _ _ s₂ hw₂]
    rcases he : endInError p.logged (panicError q) s₂ with ⟨(_ | _ | _) | _, s₃⟩ <;>
      rw [he] at hend hclosed
    case error.hang =>
      exact .inl ⟨_, rfl, Course.sticks _ hfirst (Course.sticks _ hgoes.2 hend.2)⟩
    all_goals
      have hall := Course.trans _ hgoes hend
      have hwhole := whole_of_goes hs hreport hterm hall.1 hclosed
      exact .inr ⟨_, rfl, Course.trans _ hfirst hall.2, hwhole⟩
  rw [undertake_apply, if_neg (by simp), execute_builtIn _ s hwork]
  rw [now_bind_apply, bind_apply, hr]
  rcases x with (e | q | _) | _
  · exact absurd rfl (hx e)
  · exact hfail q s₁ (Course.refl _ s₁) hwait
  · exact .inl ⟨_, rfl, hwait⟩
  · have hp := serving_pursue p (p.logged.clock s.outside) s.active.work s₁
    have hstop := stops_pursue p.logged (p.logged.clock s.outside) s.active.work s₁
    have hleaves := leaves_pursue p (p.logged.clock s.outside) hwork s₁
    dsimp only
    rcases hr₂ : pursue p.logged (p.logged.clock s.outside) s.active.work s₁ with
      ⟨(e | q | _) | _, s₂⟩ <;> rw [hr₂] at hp hstop
    · exact absurd rfl (hstop _ rfl e)
    · exact hfail q s₂ hp hwait
    · exact .inl ⟨_, rfl, Course.sticks _ hwait hp.2⟩
    · exact .inr ⟨_, rfl, Course.trans _ hwait hp.2,
        whole_of_goes hs hreport hterm hp.1 (hleaves _ _ hr₂)⟩

theorem undertake_completes (p : Parties ω) (cancelled : Bool) (s : Session (Log × ω))
    (hwork : s.active.work.isBuiltIn = true) (hopen : s.active.courier.terminal = none) :
    Completed p cancelled s (undertake p.logged cancelled s) := by
  cases cancelled with
  | true => exact undertake_cancelled p s hwork hopen
  | false => exact undertake_run p s hwork hopen

def Never (_ : Progress) : Prop := False

theorem exists_of_never {s s' : Session (Log × ω)} (h : (sending Never).Goes s s') :
    ∃ new, Sends new [] s s' ∧ Reports [] s s' := by
  obtain ⟨new, es, hs, hr, hA⟩ := h
  have hes : es = [] := List.eq_nil_iff_forall_not_mem.mpr hA
  subst hes
  exact ⟨new, hs, hr⟩

theorem serving_never (p : Parties ω) (s s' : Session (Log × ω)) (hout : s'.outside = s.outside)
    (htrackers : s'.trackers = s.trackers) (hactive : s'.active = s.active) :
    (serving Never p).Goes s s' :=
  ⟨sending_goes _ hout htrackers (by rw [hactive]) (by rw [hactive]) (by rw [hactive])
    (by rw [hactive]), awaiting_same_log hout⟩

theorem announce_completes (p : Parties ω) (phase : Milestone) (requestId : Option String)
    (s : Session (Log × ω)) :
    (∃ s', announce p.logged phase requestId s = (.error .hang, s') ∧
        (awaiting ω p.patience p.patience).Sticks s s') ∨
      ∃ s', announce p.logged phase requestId s = (.ok (), s') ∧ (serving Never p).Goes s s' := by
  have hserve := serving_announce Never p phase requestId s
  have hstop : Stops (· = .hang) (announce p.logged phase requestId) :=
    stops_forM _ fun _ => stops_shielded _
  rcases hr : announce p.logged phase requestId s with ⟨stop | _, s'⟩
  · obtain rfl : stop = .hang := hstop s stop (by rw [hr])
    rw [hr] at hserve
    exact .inl ⟨s', rfl, hserve.2⟩
  · rw [hr] at hserve
    exact .inr ⟨s', rfl, hserve⟩

/-- How a task has ended: what it sent, what was recorded, handed over and tracked of it, and what
it reports. -/
structure Ended (t : Task) (cancelled : Bool) (events : List Event) (closing : Event) (new : Log)
    (s s' : Session (Log × ω)) : Prop where
  whole : Whole t.requestId cancelled events closing
  terminal : s'.active.courier.terminal = some closing.state
  recorded : s'.active.courier.recorded = t.courier.recorded.map (· ++ events)
  delivered : Log.deliveries new =
    if t.courier.sink = .discard then [] else events.map (Prod.mk t.courier.sink)
  lastError : s'.active.stats.lastError = closing.error
  isSome_error : closing.error.isSome = true ↔ closing.state = .error
  cancelled : s'.active.stats.cancelled = true ↔ closing.state = .cancelled
  tracked : ∀ name, Log.taken name new ++ s'.trackers.failures name = s.trackers.failures name ++
    if t.courier.tracker = some name ∧ closing.state.isFailure = true
    then [⟨t.requestId, closing.state, closing.error⟩] else []

theorem ended_of_sends {t : Task} {cancelled : Bool} {events : List Event} {closing : Event}
    {new : Log} {s s' : Session (Log × ω)} (hopen : t.courier.terminal = none)
    (herror : t.stats.lastError = none) (hcancelled : t.stats.cancelled = false)
    (hs : Sends new events (takeUp t s) s') (hr : Reports events (takeUp t s) s')
    (hwhole : Whole t.requestId cancelled events closing) :
    Ended t cancelled events closing new s s' := by
  -- the events before the closing one are pending: they carry no error and count as no failure
  obtain ⟨init, rfl, hinit, hterm⟩ := hwhole.exists_init
  have hquiet : ∀ e ∈ init, e.error = none := by
    intro e he
    have h := hr.errors e (by simp [he])
    rw [hinit e he] at h
    simpa using h
  have hnoError : init.filterMap (·.error) = [] := List.filterMap_eq_nil_iff.mpr hquiet
  have hnoFailure : init.filterMap Event.failure? = [] := by
    refine List.filterMap_eq_nil_iff.mpr fun e he => ?_
    simp [Event.failure?, hinit e he, Progress.isFailure]
  have hnoCancel : init.any (·.state == .cancelled) = false := by
    refine List.any_eq_false.mpr fun e he => ?_
    simp [hinit e he]
  have hid : closing.requestId = t.requestId := hs.ids closing (by simp)
  have hstates : Protocol t.courier.terminal _ _ := hs.states
  rw [hopen] at hstates
  refine ⟨hwhole, hstates.eq_some_of_closing hterm, hs.recorded, hs.delivered, ?_,
    hr.errors closing (by simp), ?_, ?_⟩
  · rw [hr.lastError, List.filterMap_append, hnoError]
    cases hc : closing.error <;> simp [hc, takeUp, herror]
  · rw [hr.cancelled, List.any_append, hnoCancel]
    simp [takeUp, hcancelled]
  · intro name
    have h := hs.tracked name
    rw [List.filterMap_append, hnoFailure] at h
    rw [h]
    by_cases hname : t.courier.tracker = some name <;>
      cases hfail : closing.state.isFailure <;>
      simp [takeUp, hname, Event.failure?, hfail, hid]

/-- Every query and every schema task, whatever the parties do, ends exactly once: it comes back
with its terminal state sent, recorded, tracked and reported alike, or with somebody who has not
come back to it. -/
theorem perform_ends (p : Parties ω) (t : Task) (s : Session (Log × ω))
    (hwork : t.work.isBuiltIn = true) (hopen : t.courier.terminal = none)
    (herror : t.stats.lastError = none) (hcancelled : t.stats.cancelled = false) :
    ∃ new, (perform p.logged t s).2.log = s.log ++ new ∧
      ((perform p.logged t s).1 = .error .hang ∧ Log.Stuck p.patience p.patience new ∨
        (perform p.logged t s).1 = .ok () ∧
          ∃ events closing,
            Ended t (marked t s) events closing new s (perform p.logged t s).2) := by
  -- whoever does not come back, the whole does not
  have hhang : ∀ {s'}, (awaiting ω p.patience p.patience).Sticks (takeUp t s) s' →
      ∃ new, s'.log = s.log ++ new ∧ Log.Stuck p.patience p.patience new := fun h => h
  rw [perform_eq, bind_apply]
  rcases announce_completes p .started t.requestId (takeUp t s) with
    ⟨s₁, hr₁, hstuck⟩ | ⟨s₁, hr₁, hfirst⟩ <;> rw [hr₁]
  · obtain ⟨new, hnew, hst⟩ := hhang hstuck
    exact ⟨new, hnew, .inl ⟨rfl, hst⟩⟩
  have hpre := Course.trans _ hfirst (serving_never p s₁ (holdStats s₁) rfl rfl rfl)
  obtain ⟨new₁, hs₁, hrep₁⟩ := exists_of_never hpre.1
  have hwork₁ : (holdStats s₁).active.work.isBuiltIn = true := by
    rw [hs₁.work]
    exact hwork
  have hopen₁ : (holdStats s₁).active.courier.terminal = none := hs₁.states.eq_of_nil.trans hopen
  have hid₁ : (holdStats s₁).active.courier.requestId = t.requestId := hs₁.requestId
  dsimp only
  rw [bind_apply, modify_apply]
  dsimp only
  rw [bind_apply]
  rcases undertake_completes p (marked t s) (holdStats s₁) hwork₁ hopen₁ with
    ⟨s₂, hr₂, hstuck⟩ | ⟨s₂, hr₂, hgoes, new₂, events, closing, hs₂, hrep₂, hwhole⟩ <;> rw [hr₂]
  · obtain ⟨new, hnew, hst⟩ := hhang (Course.sticks _ hpre.2 hstuck)
    exact ⟨new, hnew, .inl ⟨rfl, hst⟩⟩
  rw [hid₁] at hwhole
  have hwork₂ : s₂.active.work.isBuiltIn = true := by
    rw [hs₂.work]
    exact hwork₁
  dsimp only
  rw [bind_apply, account_builtIn _ s₂ hwork₂]
  dsimp only
  have hnoted := serving_never p s₂ { s₂ with
    stats := LastRunStats.ofRun s₂.active.stats, statsHeld := false } rfl rfl rfl
  rcases announce_completes p .finished t.requestId { s₂ with
    stats := LastRunStats.ofRun s₂.active.stats, statsHeld := false } with
    ⟨s₄, hr₄, hstuck⟩ | ⟨s₄, hr₄, hlast⟩ <;> rw [hr₄]
  · obtain ⟨new, hnew, hst⟩ := hhang (Course.sticks _ hpre.2
      (Course.sticks _ hgoes (Course.sticks _ hnoted.2 hstuck)))
    exact ⟨new, hnew, .inl ⟨rfl, hst⟩⟩
  obtain ⟨new₄, hs₄, hrep₄⟩ := exists_of_never (Course.trans _ hnoted hlast).1
  have hs := (hs₁.append hs₂).append hs₄
  have hrep := (hrep₁.append hrep₂).append hrep₄
  rw [List.nil_append, List.append_nil] at hs hrep
  exact ⟨_, hs.log, .inr ⟨rfl, events, closing,
    ended_of_sends hopen herror hcancelled hs hrep hwhole⟩⟩

open Rehearsal in
/-- A listener that panics at every event, the first and the closing one. -/
def touchy : Cast := { listeners := [{ deeds := [(0, .panic {}), (1, .panic {})] }] }

def watched : Task :=
  { work := .query (.ofText "SELECT 1")
    courier := { requestId := some "q1", sink := .callback 0, tracker := some "failures",
                 recorded := some [] } }

def fresh : Session (Log × Rehearsal.Scene) :=
  .create "s1" "Mock" {} {} ([], touchy.scene {} [])

theorem perform_ends_touchy :
    (perform touchy.parties.logged watched fresh).1 = .ok () ∧
      ∃ events closing new, Ended watched false events closing new fresh
        (perform touchy.parties.logged watched fresh).2 := by
  have hreturns : (perform touchy.parties.logged watched fresh).1.isOk = true := by decide +kernel
  obtain ⟨new, -, ⟨hx, -⟩ | ⟨hx, events, closing, h⟩⟩ :=
    perform_ends touchy.parties watched fresh rfl rfl rfl rfl
  · rw [hx] at hreturns
    cases hreturns
  · exact ⟨hx, events, closing, new, h⟩

end Task
end DatabaseSession
