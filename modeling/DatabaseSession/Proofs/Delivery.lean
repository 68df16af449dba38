import DatabaseSession.Proofs.Effects

namespace DatabaseSession

/-- What a tracker keeps of an event. -/
def Event.failure? (e : Event) : Option Failure :=
  if e.state.isFailure then some ⟨e.requestId, e.state, e.error⟩ else none

/-- The events of a task lead from one terminal state, or none, to another: any number of pending
ones, and at most one that ends the task, after which there are no more. -/
inductive Protocol : Option Progress → List Event → Option Progress → Prop where
  | silent (t : Option Progress) : Protocol t [] t
  | pending {e : Event} {es : List Event} {t : Option Progress} (he : e.state = .pending)
      (h : Protocol none es t) : Protocol none (e :: es) t
  | closing {e : Event} (he : e.state.isTerminal = true) : Protocol none [e] (some e.state)

namespace Protocol

variable {a b c : Option Progress} {es es' : List Event}

theorem append (h : Protocol a es b) (h' : Protocol b es' c) : Protocol a (es ++ es') c := by
  induction h with
  | silent t => exact h'
  | pending he _ ih => exact .pending he (ih h')
  | closing he =>
    cases h'
    exact .closing he

theorem eq_of_nil (h : Protocol a [] b) : b = a := by
  cases h
  rfl

/-- What was open and is closed has had exactly one closing event, the last one. -/
theorem exists_closing (h : Protocol a es b) (ha : a = none) (hb : b.isSome = true) :
    ∃ init last, es = init ++ [last] ∧ (∀ e ∈ init, e.state = .pending) ∧
      b = some last.state ∧ last.state.isTerminal = true := by
  induction h with
  | silent t =>
    subst ha
    simp at hb
  | @pending e es t he _ ih =>
    obtain ⟨init, last, rfl, hinit, ht, hlast⟩ := ih rfl hb
    refine ⟨e :: init, last, rfl, ?_, ht, hlast⟩
    simpa [he] using hinit
  | @closing e he => exact ⟨[], e, rfl, by simp, rfl, he⟩

theorem eq_some_of_closing {init : List Event} {last : Event} {t : Option Progress}
    (h : Protocol none (init ++ [last]) t) (hlast : last.state.isTerminal = true) :
    t = some last.state := by
  induction init with
  | nil =>
    cases h with
    | pending he => simp [he, Progress.isTerminal] at hlast
    | closing => rfl
  | cons e init ih =>
    rw [List.cons_append] at h
    generalize hes : init ++ [last] = es at h ih
    cases h with
    | pending _ h => exact ih h
    | closing => simp at hes

end Protocol

namespace Log

theorem deliveries_asides {asides : Log} (h : ∀ e ∈ asides, e.isAside = true) :
    deliveries asides = [] := by
  refine List.filterMap_eq_nil_iff.mpr fun e he => ?_
  have hside := h e he
  cases e with
  | called d => simp [Entry.isAside] at hside
  | returned | asked | interrupted => rfl

end Log

namespace Task

variable {ω : Type}

/-- Between two states the active task sent these events, while the log grew by `new`: each was
recorded, handed to the sink and, if it is a failure, tracked. Failures taken out of a tracker
meanwhile are found in the log. -/
structure Sends (new : Log) (es : List Event) (s s' : Session (Log × ω)) : Prop where
  log : s'.log = s.log ++ new
  work : s'.active.work = s.active.work
  requestId : s'.active.courier.requestId = s.active.courier.requestId
  sink : s'.active.courier.sink = s.active.courier.sink
  tracker : s'.active.courier.tracker = s.active.courier.tracker
  recorded : s'.active.courier.recorded = s.active.courier.recorded.map (· ++ es)
  states : Protocol s.active.courier.terminal es s'.active.courier.terminal
  ids : ∀ e ∈ es, e.requestId = s.active.courier.requestId
  delivered : Log.deliveries new =
    if s.active.courier.sink = .discard then [] else es.map (Prod.mk s.active.courier.sink)
  tracked : ∀ name, Log.taken name new ++ s'.trackers.failures name = s.trackers.failures name ++
    if s.active.courier.tracker = some name then es.filterMap Event.failure? else []

namespace Sends

theorem append {new new' : Log} {es es' : List Event} {a b c : Session (Log × ω)}
    (h : Sends new es a b) (h' : Sends new' es' b c) :
    Sends (new ++ new') (es ++ es') a c where
  log := by rw [h'.log, h.log, List.append_assoc]
  work := h'.work.trans h.work
  requestId := h'.requestId.trans h.requestId
  sink := h'.sink.trans h.sink
  tracker := h'.tracker.trans h.tracker
  recorded := by
    rw [h'.recorded, h.recorded]
    cases a.active.courier.recorded <;> simp
  states := h.states.append h'.states
  ids := by
    intro e he
    rcases List.mem_append.mp he with he | he
    · exact h.ids e he
    · exact (h'.ids e he).trans h.requestId
  delivered := by
    rw [Log.deliveries_append, h.delivered, h'.delivered, h.sink]
    split <;> simp
  tracked := by
    intro name
    rw [Log.taken_append, List.append_assoc, h'.tracked, ← List.append_assoc, h.tracked, h.tracker]
    split <;> simp

theorem silent {new : Log} {s s' : Session (Log × ω)} (hlog : s'.log = s.log ++ new)
    (hwork : s'.active.work = s.active.work) (hcourier : s'.active.courier = s.active.courier)
    (hdel : Log.deliveries new = [])
    (htr : ∀ name, Log.taken name new ++ s'.trackers.failures name = s.trackers.failures name) :
    Sends new [] s s' where
  log := hlog
  work := hwork
  requestId := by rw [hcourier]
  sink := by rw [hcourier]
  tracker := by rw [hcourier]
  recorded := by
    rw [hcourier]
    cases s.active.courier.recorded <;> simp
  states := by
    rw [hcourier]
    exact .silent _
  ids := by simp
  delivered := by simp [hdel]
  tracked := by simpa using htr

end Sends

/-- An event is booked: its failure is tracked, a copy is kept, and a terminal state is final. -/
def book (s : Session ω) (e : Event) : Session ω :=
  { s with
    trackers := match s.active.courier.tracker, e.failure? with
      | some name, some f => s.trackers.add name f
      | _, _ => s.trackers
    active := { s.active with courier := { s.active.courier with
      recorded := s.active.courier.recorded.map (· ++ [e])
      terminal := if e.state.isTerminal then some e.state else none } } }

theorem emit_open (p : Parties ω) (state : Progress) (message : Option String)
    (data : Option EventData) (error : Option ErrorReport) (s : Session ω)
    (hopen : s.active.courier.terminal = none) :
    emit p state message data error s =
      hand p s.active.courier.sink ⟨s.active.courier.requestId, state, message, error, data⟩
        (book s ⟨s.active.courier.requestId, state, message, error, data⟩) := by
  unfold emit
  rw [Run.get_bind_apply]
  simp only [Courier.send, hopen, Option.isSome_none, Bool.false_eq_true, ↓reduceIte]
  rfl

theorem emit_closed (p : Parties ω) (state : Progress) (message : Option String)
    (data : Option EventData) (error : Option ErrorReport) (s : Session ω)
    (hclosed : s.active.courier.terminal.isSome = true) :
    emit p state message data error s = (.ok (), s) := by
  unfold emit
  rw [Run.get_bind_apply]
  simp only [Courier.send, hclosed, ↓reduceIte]
  rfl

/-- An event was handed over: what the log shows of it, and what it leaves. -/
structure Handed (sink : Sink) (event : Event) (new : Log) (x : Except Stop Unit)
    (s s' : Session (Log × ω)) : Prop extends Session.Meanwhile s s' where
  log : s'.log = s.log ++ new
  calls : Log.calls new = if sink = .discard then [] else [.deliver sink event]
  delivered : Log.deliveries new = if sink = .discard then [] else [(sink, event)]
  returned : ∀ d y, .returned d y ∈ new → d = .deliver sink event
  tracked : ∀ name, Log.taken name new ++ s'.trackers.failures name = s.trackers.failures name
  killed : (∀ thread a, .asked thread .kill a ∉ new) → s.killed = false → s'.killed = false
  unfailing : ∀ e, x ≠ .error (.error e)
  blamed : ∀ q, x = .error (.panic q) →
    .returned (.deliver sink event) (.error (.panic q)) ∈ new

theorem Handed.ofTurned {sink : Sink} (hsink : sink ≠ .discard) {event : Event} {new : Log}
    {x y : Except Stop Unit} {s s' : Session (Log × ω)}
    (h : Session.Turned (.deliver sink event) x new s s')
    (hy : ∀ e, y ≠ .error (.error e)) (hxy : ∀ q, y = .error (.panic q) → x = y) :
    Handed sink event new y s s' where
  toMeanwhile := h.toMeanwhile
  log := h.log
  calls := by simp [h.calls, hsink]
  delivered := by
    obtain ⟨asides, hside, rfl | ⟨_, rfl⟩⟩ := h.entries <;>
      simpa [Log.deliveries, hsink] using Log.deliveries_asides hside
  returned _ _ hz := (h.returned hz).1
  tracked := h.tracked
  killed := h.killed
  unfailing := hy
  blamed := by
    intro q hq
    have hx := hxy q hq
    obtain ⟨asides, hside, rfl | ⟨hhang, _⟩⟩ := h.entries
    · simp [hx, hq]
    · rw [hhang] at hx
      rw [← hx] at hq
      cases hq

/-- Handing an event over is logged as its delivery; a sink cannot report an error. -/
theorem hand_handed (p : Parties ω) (sink : Sink) (event : Event) (s : Session (Log × ω)) :
    ∃ new x s', hand p.logged sink event s = (x, s') ∧ Handed sink event new x s s' := by
  cases sink with
  | discard =>
    exact ⟨[], _, s, rfl, .refl s, by simp, rfl, rfl, by simp, by simp [Log.taken], fun _ h => h,
      by simp, by simp⟩
  | channel inbox =>
    refine ⟨_, _, _, rfl, ⟨.of_eq rfl rfl, rfl, rfl, rfl, rfl, rfl, rfl, rfl, rfl, rfl⟩, rfl, rfl,
      rfl, ?_, by simp [Log.taken], fun _ h => h, by simp, by simp⟩
    intro d y h
    simp only [List.mem_cons, reduceCtorEq, List.not_mem_nil, or_false, false_or,
      Entry.returned.injEq] at h
    exact h.1
  | callback key =>
    obtain ⟨new, ht⟩ :=
      Run.party_logged p (.deliver (.callback key) event) (p.callback key event) s
    change ∃ new x s', Run.valueOr () (Run.party _ (Play.logged _ _)) s = (x, s') ∧ _
    rw [Run.valueOr_apply]
    rcases hr : Run.party p.logged ((p.callback key event).logged
      (.deliver (.callback key) event)) s with ⟨(_ | _ | _) | _, s'⟩ <;> rw [hr] at ht <;>
      exact ⟨new, _, s', rfl, .ofTurned (by simp) ht (by simp) (by simp [Except.map])⟩

theorem failures_book (s : Session ω) (e : Event) (name : String) :
    (book s e).trackers.failures name = s.trackers.failures name ++
      if s.active.courier.tracker = some name then e.failure?.toList else [] := by
  cases htr : s.active.courier.tracker with
  | none => simp [book, htr]
  | some tracker =>
    cases hf : e.failure? with
    | none => simp [book, htr, hf]
    | some f =>
      simp only [book, htr, hf, Trackers.failures_add, Option.some.injEq, Option.toList_some]
      congr 1
      simp only [eq_comm]

theorem protocol_book (e : Event) :
    Protocol none [e] (if e.state.isTerminal then some e.state else none) := by
  cases hst : e.state with
  | pending => exact .pending hst (.silent none)
  | ok | error | cancelled =>
    have h := Protocol.closing (e := e) (by simp [hst, Progress.isTerminal])
    simpa [hst, Progress.isTerminal] using h

theorem emit_handed (p : Parties ω) (state : Progress) (message : Option String)
    (data : Option EventData) (error : Option ErrorReport) (s : Session (Log × ω))
    (hopen : s.active.courier.terminal = none) :
    ∃ new x s', emit p.logged state message data error s = (x, s') ∧
      Handed s.active.courier.sink ⟨s.active.courier.requestId, state, message, error, data⟩ new x
        (book s ⟨s.active.courier.requestId, state, message, error, data⟩) s' := by
  rw [emit_open p.logged _ _ _ _ s hopen]
  exact hand_handed p _ _ _

theorem Handed.sends {e : Event} {new : Log} {x : Except Stop Unit} {s s' : Session (Log × ω)}
    (h : Handed s.active.courier.sink e new x (book s e) s')
    (hopen : s.active.courier.terminal = none) (hid : e.requestId = s.active.courier.requestId) :
    Sends new [e] s s' where
  log := h.log
  work := by rw [h.active]; rfl
  requestId := by rw [h.active]; rfl
  sink := by rw [h.active]; rfl
  tracker := by rw [h.active]; rfl
  recorded := by rw [h.active]; rfl
  states := by
    rw [h.active, hopen]
    exact protocol_book e
  ids := by simpa using hid
  delivered := by simpa using h.delivered
  tracked := by
    intro name
    rw [h.tracked, failures_book]
    cases hf : e.failure? <;> simp [List.filterMap, hf]

/-- An event that is sent while the task is open is sent, whatever the sink makes of it. -/
theorem emit_sends (p : Parties ω) (state : Progress) (message : Option String)
    (data : Option EventData) (error : Option ErrorReport) (s : Session (Log × ω))
    (hopen : s.active.courier.terminal = none) :
    ∃ new x s', emit p.logged state message data error s = (x, s') ∧
      Sends new [⟨s.active.courier.requestId, state, message, error, data⟩] s s' ∧
      s'.active.courier.terminal = (if state.isTerminal then some state else none) ∧
      s'.active.stats = s.active.stats ∧ ∀ e, x ≠ .error (.error e) := by
  obtain ⟨new, x, s', hr, h⟩ := emit_handed p state message data error s hopen
  exact ⟨new, x, s', hr, h.sends hopen rfl, by rw [h.active]; rfl, by rw [h.active]; rfl,
    h.unfailing⟩

/-- The statistics tell of the events sent: of the error, and of the cancellation. -/
structure Reports (es : List Event) (s s' : Session ω) : Prop where
  lastError : s'.active.stats.lastError =
    (es.filterMap (·.error)).getLast?.or s.active.stats.lastError
  cancelled : s'.active.stats.cancelled =
    (s.active.stats.cancelled || es.any (·.state == .cancelled))
  errors : ∀ e ∈ es, e.error.isSome = true ↔ e.state = .error

theorem Reports.append {es es' : List Event} {a b c : Session ω} (h : Reports es a b)
    (h' : Reports es' b c) : Reports (es ++ es') a c where
  lastError := by
    rw [h'.lastError, h.lastError, List.filterMap_append, List.getLast?_append, Option.or_assoc]
  cancelled := by rw [h'.cancelled, h.cancelled, List.any_append, Bool.or_assoc]
  errors := by
    intro e he
    rcases List.mem_append.mp he with he | he
    · exact h.errors e he
    · exact h'.errors e he

theorem Reports.silent {s s' : Session ω}
    (he : s'.active.stats.lastError = s.active.stats.lastError)
    (hc : s'.active.stats.cancelled = s.active.stats.cancelled) : Reports [] s s' :=
  ⟨by simp [he], by simp [hc], by simp⟩

theorem Sends.refl (s : Session (Log × ω)) : Sends [] [] s s :=
  .silent (by simp) rfl rfl rfl (by simp [Log.taken])

/-- What tasks do: they send events in the given states and report on them. -/
def sending (A : Progress → Prop) : Course (Log × ω) :=
  .plain (fun s s' => ∃ new es, Sends new es s s' ∧ Reports es s s' ∧ ∀ e ∈ es, A e.state)
    (fun _ _ => True)
    (fun s => ⟨[], [], .refl s, .silent rfl rfl, by simp⟩)
    (by
      rintro a b c ⟨new, es, hs, hr, ha⟩ ⟨new', es', hs', hr', ha'⟩
      refine ⟨_, _, hs.append hs', hr.append hr', ?_⟩
      intro e he
      rcases List.mem_append.mp he with he | he
      · exact ha e he
      · exact ha' e he)
    fun _ _ => trivial

theorem Sends.ofTurned {d : Duty} {x : Except Stop Unit} {new : Log} {s s' : Session (Log × ω)}
    (h : Session.Turned d x new s s') (hd : Log.deliveries [.called d] = []) :
    Sends new [] s s' := by
  refine .silent h.log (by rw [h.active]) (by rw [h.active]) ?_ h.tracked
  obtain ⟨asides, hside, rfl | ⟨_, rfl⟩⟩ := h.entries
  · rw [← List.singleton_append, Log.deliveries_append, Log.deliveries_append, hd,
      Log.deliveries_asides hside]
    rfl
  · rw [← List.singleton_append, Log.deliveries_append, hd, Log.deliveries_asides hside]
    rfl

theorem sending_permits (A : Progress → Prop) (p : Parties ω) {d : Duty}
    (hd : Log.deliveries [.called d] = []) : (sending A).Permits p d := by
  refine Course.permits_of fun {x new s s'} ht => Course.allows_of_panics ?_ trivial
  exact ⟨new, [], .ofTurned ht hd, .silent (by rw [ht.active]) (by rw [ht.active]), by simp⟩

theorem sending_goes (A : Progress → Prop) {s s' : Session (Log × ω)}
    (hout : s'.outside = s.outside) (htr : s'.trackers = s.trackers)
    (hw : s'.active.work = s.active.work) (hc : s'.active.courier = s.active.courier)
    (he : s'.active.stats.lastError = s.active.stats.lastError)
    (hk : s'.active.stats.cancelled = s.active.stats.cancelled) : (sending A).Goes s s' :=
  ⟨[], [], .silent (by simp [Session.log, hout]) hw hc rfl (by simp [Log.taken, htr]),
    .silent he hk, by simp⟩

def startEvent (requestId : Option String) : Event :=
  ⟨requestId, .pending, some startedMessage, none, none⟩

def errorEvent (requestId : Option String) (e : Error) : Event :=
  ⟨requestId, .error, some (ErrorReport.ofError e).message, some (.ofError e), none⟩

theorem endInError_closed (p : Parties ω) (e : Error) (s : Session ω)
    (hclosed : s.active.courier.terminal.isSome = true) : endInError p e s = (.ok (), s) := by
  unfold endInError
  rw [Run.get_bind_apply]
  simp only [hclosed, ↓reduceIte]
  rfl

def noteError (s : Session ω) (e : Error) : Session ω :=
  { s with active := { s.active with stats := { s.active.stats with
    lastError := some (.ofError e) } } }

theorem noteError_sends (s : Session (Log × ω)) (e : Error) : Sends [] [] s (noteError s e) :=
  .silent (by simp [Session.log, noteError]) rfl rfl rfl (by simp [Log.taken, noteError])

theorem endInError_open (p : Parties ω) (e : Error) (s : Session ω)
    (hopen : s.active.courier.terminal = none) :
    endInError p e s = emit p .error (some (ErrorReport.ofError e).message) none
      (some (.ofError e)) (noteError s e) := by
  unfold endInError
  rw [Run.get_bind_apply]
  simp only [hopen, Option.isSome_none, Bool.false_eq_true, ↓reduceIte]
  rfl

theorem endInError_sends (p : Parties ω) (e : Error) (s : Session (Log × ω))
    (hopen : s.active.courier.terminal = none) :
    ∃ new x s', endInError p.logged e s = (x, s') ∧
      Sends new [errorEvent s.active.courier.requestId e] s s' ∧
      Reports [errorEvent s.active.courier.requestId e] s s' ∧
      s'.active.courier.terminal = some .error ∧ ∀ e, x ≠ .error (.error e) := by
  obtain ⟨new, x, s', hr, hs, hterm, hstats, hx⟩ := emit_sends p .error
    (some (ErrorReport.ofError e).message) none (some (.ofError e)) (noteError s e) hopen
  exact ⟨new, x, s', (endInError_open p.logged e s hopen).trans hr, (noteError_sends s e).append hs,
    ⟨by simp [hstats, noteError, errorEvent], by simp [hstats, noteError, errorEvent],
      by simp [errorEvent]⟩, hterm, hx⟩

theorem sending_emit (A : Progress → Prop) (p : Parties ω) {state : Progress}
    (message : Option String) (data : Option EventData) (hA : A state)
    (hstate : state = .pending ∨ state = .ok) :
    Run.Follows (sending A) (emit p.logged state message data none) := by
  intro s
  refine Course.allows_of_panics ?_ trivial
  cases hterm : s.active.courier.terminal with
  | some st =>
    rw [emit_closed _ _ _ _ _ s (by simp [hterm])]
    exact (sending A).refl s
  | none =>
    obtain ⟨new, x, s', hr, hs, -, hstats, -⟩ := emit_sends p state message data none s hterm
    rw [hr]
    refine ⟨new, _, hs, ⟨?_, ?_, ?_⟩, by simpa using hA⟩
    · simp [hstats]
    · rcases hstate with rfl | rfl <;> simp [hstats]
    · rcases hstate with rfl | rfl <;> simp

theorem sending_endInError (A : Progress → Prop) (p : Parties ω) (hA : A .error) (e : Error) :
    Run.Follows (sending A) (endInError p.logged e) := by
  intro s
  refine Course.allows_of_panics ?_ trivial
  cases hterm : s.active.courier.terminal with
  | some st =>
    rw [endInError_closed _ e s (by simp [hterm])]
    exact (sending A).refl s
  | none =>
    obtain ⟨new, x, s', hr, hs, hreport, -, -⟩ := endInError_sends p e s hterm
    rw [hr]
    exact ⟨new, _, hs, hreport, by simpa [errorEvent] using hA⟩

theorem sending_covers (A : Progress → Prop) (p : Parties ω) (hA : ∀ st, st ≠ .cancelled → A st) :
    Covers (sending A) p where
  permits d hd := sending_permits A p (by cases d <;> simp_all [Duty.isConnecting, Log.deliveries])
  counts s := sending_goes A rfl rfl rfl rfl rfl rfl
  reading d hd := sending_permits A p (by cases d <;> simp_all [Duty.isReading, Log.deliveries])
  streams chunk := Run.follows_bind
    (Run.follows_modify fun s => sending_goes A rfl rfl rfl rfl rfl rfl)
    fun _ => sending_emit A p _ _ (hA _ (by simp)) (.inl rfl)
  endsWell message data := sending_emit A p message data (hA _ (by simp)) (.inr rfl)
  updates s t ht := sending_goes A rfl rfl ht.work ht.courier ht.lastError ht.cancelled
  schema d hd := sending_permits A p (by cases d <;> simp_all [Duty.isSchema, Log.deliveries])
  endsInError e := sending_endInError A p (hA _ (by simp)) e
  restarts s := sending_goes A rfl rfl rfl rfl rfl rfl

end Task
end DatabaseSession
