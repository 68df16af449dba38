import DatabaseSession.Proofs.Effects

namespace DatabaseSession

variable {ω α β γ δ ε : Type}

/-- The chunk without the time that its statement took. -/
def Chunk.untimed (c : Chunk) : Chunk :=
  { c with executionTime := c.executionTime.map fun _ => Binary64.ofInt 0 }

def EventData.untimed : EventData → EventData
  | .rows chunk => .rows chunk.untimed
  | .result value => .result value

def Event.untimed (e : Event) : Event := { e with data := e.data.map EventData.untimed }

def RunStats.untimed (r : RunStats) : RunStats :=
  { r with executionTime := r.executionTime.map fun _ => ⟨0, 0⟩ }

def LastRunStats.untimed (r : LastRunStats) : LastRunStats :=
  { r with lastExecutionTime := r.lastExecutionTime.map fun _ => ⟨0, 0⟩ }

theorem LastRunStats.untimed_ofRun (r : RunStats) : (ofRun r).untimed = ofRun r.untimed := rfl

def Duty.untimed : Duty → Duty
  | .deliver sink event => .deliver sink event.untimed
  | d => d

def Entry.untimed : Entry → Entry
  | .called d => .called d.untimed
  | .returned d x => .returned d.untimed x
  | e => e

def Log.untimed (log : Log) : Log := log.map Entry.untimed

theorem Log.untimed_append (a b : Log) : untimed (a ++ b) = untimed a ++ untimed b :=
  List.map_append

/-- From two worlds that are so related, both moves end at once and in the same way, in two such
worlds again. -/
def Play.Parallel (R : ω → ω → Prop) (m m' : Play ω α) : Prop :=
  ∀ w w', R w w' → ∃ x v v', m w = .done x v ∧ m' w' = .done x v' ∧ R v v'

structure Backend.Oblivious (c : Backend ω) (R : ω → ω → Prop) : Prop where
  connect : ∀ o, Play.Parallel R (c.connect o) (c.connect o)
  disconnect : Play.Parallel R c.disconnect c.disconnect
  release : Play.Parallel R c.release c.release
  execute : ∀ sql params, Play.Parallel R (c.execute sql params) (c.execute sql params)
  columns : Play.Parallel R c.columns c.columns
  fetchRow : Play.Parallel R c.fetchRow c.fetchRow
  nextResult : Play.Parallel R c.nextResult c.nextResult
  stats : Play.Parallel R c.stats c.stats
  info : Play.Parallel R c.info c.info
  defaultSchema : Play.Parallel R c.defaultSchema c.defaultSchema
  currentSchema : Play.Parallel R c.currentSchema c.currentSchema
  setCurrentSchema : ∀ schema,
    Play.Parallel R (c.setCurrentSchema schema) (c.setCurrentSchema schema)
  interrupter : Play.Parallel R c.interrupter c.interrupter
  dispose : Play.Parallel R c.dispose c.dispose

structure Hook.Oblivious (h : Hook ω) (R : ω → ω → Prop) : Prop where
  onConnect : Play.Parallel R h.onConnect h.onConnect
  onConnected : Play.Parallel R h.onConnected h.onConnected
  onFailed : ∀ e, Play.Parallel R (h.onFailed e) (h.onFailed e)
  onClose : Play.Parallel R h.onClose h.onClose

/-- Nobody uses the session in a turn, and nobody acts on what sets two related worlds apart, nor on
the execution times in an event. -/
structure Parties.Oblivious (p : Parties ω) (R : ω → ω → Prop) : Prop where
  backend : p.backend.Oblivious R
  hooks : ∀ hook ∈ p.hooks, hook.Oblivious R
  connectionObservers : ∀ observe ∈ p.connectionObservers, ∀ notice,
    Play.Parallel R (observe notice) (observe notice)
  taskObservers : ∀ observe ∈ p.taskObservers, ∀ phase id,
    Play.Parallel R (observe phase id) (observe phase id)
  post : ∀ inbox e e' w w', e.untimed = e'.untimed → R w w' →
    R (p.post inbox e w) (p.post inbox e' w')
  callback : ∀ key e e', e.untimed = e'.untimed →
    Play.Parallel R (p.callback key e) (p.callback key e')

/-- Related worlds with logs that differ in execution times only. -/
def Log.Related (R : ω → ω → Prop) (lw lw' : Log × ω) : Prop :=
  untimed lw.1 = untimed lw'.1 ∧ R lw.2 lw'.2

theorem Play.Parallel.logged {R : ω → ω → Prop} {m m' : Play ω α} (h : Parallel R m m')
    {d d' : Duty} (hd : d.untimed = d'.untimed) :
    Parallel (Log.Related R) (m.logged d) (m'.logged d') := by
  rintro ⟨log, w⟩ ⟨log', w'⟩ ⟨hlog, hw⟩
  obtain ⟨x, v, v', hm, hm', hv⟩ := h w w' hw
  refine ⟨x, (log ++ [.called d] ++ [.returned d (x.map fun _ => ())], v),
    (log' ++ [.called d'] ++ [.returned d' (x.map fun _ => ())], v'), ?_, ?_, ?_, hv⟩
  · simp only [Play.logged, hm, Turn.logged]
  · simp only [Play.logged, hm', Turn.logged]
  · have hcalled : Entry.untimed (.called d) = .called d'.untimed := congrArg Entry.called hd
    have hreturned : Entry.untimed (.returned d (x.map fun _ => ())) =
        .returned d'.untimed (x.map fun _ => ()) := by rw [Entry.untimed, hd]
    rw [Log.untimed_append, Log.untimed_append, Log.untimed_append, Log.untimed_append, hlog]
    simp only [Log.untimed, List.map_cons, List.map_nil, hcalled, hreturned]
    rfl

theorem Parties.Oblivious.logged {p : Parties ω} {R : ω → ω → Prop} (h : p.Oblivious R) :
    p.logged.Oblivious (Log.Related R) where
  backend := {
    connect := fun o => (h.backend.connect o).logged rfl
    disconnect := h.backend.disconnect.logged rfl
    release := h.backend.release.logged rfl
    execute := fun sql params => (h.backend.execute sql params).logged rfl
    columns := h.backend.columns.logged rfl
    fetchRow := h.backend.fetchRow.logged rfl
    nextResult := h.backend.nextResult.logged rfl
    stats := h.backend.stats.logged rfl
    info := h.backend.info.logged rfl
    defaultSchema := h.backend.defaultSchema.logged rfl
    currentSchema := h.backend.currentSchema.logged rfl
    setCurrentSchema := fun schema => (h.backend.setCurrentSchema schema).logged rfl
    interrupter := h.backend.interrupter.logged rfl
    dispose := h.backend.dispose.logged rfl }
  hooks := by
    intro hook hhook
    obtain ⟨i, hi, rfl⟩ := List.mem_mapIdx.mp hhook
    have hplain := h.hooks _ (List.getElem_mem hi)
    exact ⟨hplain.onConnect.logged rfl, hplain.onConnected.logged rfl,
      fun e => (hplain.onFailed e).logged rfl, hplain.onClose.logged rfl⟩
  connectionObservers := by
    intro observe hobserve notice
    obtain ⟨i, hi, rfl⟩ := List.mem_mapIdx.mp hobserve
    exact (h.connectionObservers _ (List.getElem_mem hi) notice).logged rfl
  taskObservers := by
    intro observe hobserve phase id
    obtain ⟨i, hi, rfl⟩ := List.mem_mapIdx.mp hobserve
    exact (h.taskObservers _ (List.getElem_mem hi) phase id).logged rfl
  -- an event that is put into an inbox leaves two entries
  post := by
    rintro inbox e e' ⟨log, w⟩ ⟨log', w'⟩ he ⟨hlog, hw⟩
    refine ⟨?_, h.post inbox e e' w w' he hw⟩
    change Log.untimed (log ++ [_, _]) = Log.untimed (log' ++ [_, _])
    rw [Log.untimed_append, Log.untimed_append, hlog]
    simp only [Log.untimed, List.map_cons, List.map_nil, Entry.untimed, Duty.untimed, he]
  callback := fun key e e' he =>
    (h.callback key e e' he).logged (by rw [Duty.untimed, Duty.untimed, he])

/-- Two queries or schema tasks that have come equally far; one may keep its events. -/
structure Task.Alike (t t' : Task) : Prop where
  builtIn : t.work.isBuiltIn = true
  work : t.work = t'.work
  requestId : t.courier.requestId = t'.courier.requestId
  sink : t.courier.sink = t'.courier.sink
  tracker : t.courier.tracker = t'.courier.tracker
  terminal : t.courier.terminal = t'.courier.terminal
  stats : t.stats.untimed = t'.stats.untimed
  streamed : t.streamed = t'.streamed

namespace Session

/-- What connects and tasks leave as it is: the life cycle, the worker's end and the options. -/
structure Frame where
  life : Life
  locked : Bool
  handles : Nat
  terminated : Signal
  registry : Registry
  mailbox : Mailbox
  options : Options

def frame (s : Session ω) : Frame :=
  ⟨s.life, s.locked, s.handles, s.terminated, s.registry, s.mailbox, s.link.options⟩

/-- Two sessions that differ in where their tasks run, in execution times, and in what sets two
related worlds apart. -/
structure Alike (R : ω → ω → Prop) (s s' : Session ω) : Prop where
  id : s.id = s'.id
  retries : s.settings.statementRetries = s'.settings.statementRetries
  attempts : s.settings.reconnectAttempts = s'.settings.reconnectAttempts
  autoReconnect : s.autoReconnect = s'.autoReconnect
  killed : s.killed = s'.killed
  stats : s.stats.untimed = s'.stats.untimed
  statsHeld : s.statsHeld = s'.statsHeld
  published : s.published = s'.published
  trackers : s.trackers = s'.trackers
  link : s.link = s'.link
  active : s.active.Alike s'.active
  outside : R s.outside s'.outside

end Session

/-- Both have values that are so related, or both stop in the same way. -/
inductive Ends (V : α → β → Prop) : Except ε α → Except ε β → Prop where
  | ok {a : α} {b : β} (h : V a b) : Ends V (.ok a) (.ok b)
  | error (e : ε) : Ends V (.error e) (.error e)

theorem Ends.mono {V W : α → β → Prop} {x : Except ε α} {x' : Except ε β} (h : Ends V x x')
    (hVW : ∀ a b, V a b → W a b) : Ends W x x' := by
  cases h with
  | ok h => exact .ok (hVW _ _ h)
  | error e => exact .error e

theorem Ends.eq {x x' : Except ε α} (h : Ends Eq x x') : x = x' := by
  cases h with
  | ok h => rw [h]
  | error e => rfl

namespace Run

open Session

/-- From alike sessions both computations end in the same way, with values that are so related,
and leave alike sessions in the frames they had. -/
def Matched (R : ω → ω → Prop) (V : α → β → Prop) (m : Run ω α) (m' : Run ω β) : Prop :=
  ∀ s s', Alike R s s' → Ends V (m s).1 (m' s').1 ∧ Alike R (m s).2 (m' s').2 ∧
    (m s).2.frame = s.frame ∧ (m' s').2.frame = s'.frame

variable {R : ω → ω → Prop} {V : α → β → Prop} {W : γ → δ → Prop}

theorem matched_pure {a : α} {b : β} (h : V a b) :
    Matched R V (pure a : Run ω α) (pure b : Run ω β) := fun _ _ hs => ⟨.ok h, hs, rfl, rfl⟩

theorem matched_get : Matched R (Alike R) (get : Run ω (Session ω)) get :=
  fun _ _ hs => ⟨.ok hs, hs, rfl, rfl⟩

theorem matched_raise (e : Error) : Matched R V (raise e : Run ω α) (raise e : Run ω β) :=
  fun _ _ hs => ⟨.error _, hs, rfl, rfl⟩

theorem matched_hang : Matched R V (hang : Run ω α) (hang : Run ω β) :=
  fun _ _ hs => ⟨.error _, hs, rfl, rfl⟩

theorem matched_now (p : Parties ω) : Matched R (fun _ _ => True) (now p) (now p) :=
  fun _ _ hs => ⟨.ok trivial, hs, rfl, rfl⟩

theorem matched_modify {f f' : Session ω → Session ω}
    (h : ∀ s s', Alike R s s' → Alike R (f s) (f' s')) (hf : ∀ s, (f s).frame = s.frame)
    (hf' : ∀ s, (f' s).frame = s.frame) :
    Matched R Eq (modify f : Run ω Unit) (modify f' : Run ω Unit) :=
  fun s s' hs => ⟨.ok rfl, h s s' hs, hf s, hf' s'⟩

theorem matched_bind {m : Run ω α} {m' : Run ω β} {f : α → Run ω γ} {f' : β → Run ω δ}
    (hm : Matched R V m m') (hf : ∀ a b, V a b → Matched R W (f a) (f' b)) :
    Matched R W (m >>= f) (m' >>= f') := by
  intro s s' hs
  obtain ⟨hx, ht, hF, hF'⟩ := hm s s' hs
  rw [bind_apply, bind_apply]
  rcases h : m s with ⟨x, t⟩
  rcases h' : m' s' with ⟨x', t'⟩
  rw [h] at hx ht hF
  rw [h'] at hx ht hF'
  cases hx with
  | ok hv =>
    obtain ⟨hy, hu, hG, hG'⟩ := hf _ _ hv t t' ht
    exact ⟨hy, hu, hG.trans hF, hG'.trans hF'⟩
  | error stop => exact ⟨.error stop, ht, hF, hF'⟩

/-- The common case: both have the same value. -/
theorem matched_bind_eq {m m' : Run ω α} {f : α → Run ω γ} {f' : α → Run ω δ}
    (hm : Matched R Eq m m') (hf : ∀ a, Matched R W (f a) (f' a)) :
    Matched R W (m >>= f) (m' >>= f') := by
  refine matched_bind hm ?_
  rintro a _ rfl
  exact hf a

theorem matched_attempt {m : Run ω α} {m' : Run ω β} (hm : Matched R V m m') :
    Matched R (Ends V) (attempt m) (attempt m') := by
  intro s s' hs
  obtain ⟨hx, ht⟩ := hm s s' hs
  unfold attempt
  rcases h : m s with ⟨x, t⟩
  rcases h' : m' s' with ⟨x', t'⟩
  rw [h, h'] at hx ht
  cases hx with
  | ok hv => exact ⟨.ok (.ok hv), ht⟩
  | error stop =>
    cases stop with
    | error e => exact ⟨.ok (.error e), ht⟩
    | panic q => exact ⟨.error _, ht⟩
    | hang => exact ⟨.error _, ht⟩

theorem matched_guarded {m : Run ω α} {m' : Run ω β} (hm : Matched R V m m') :
    Matched R (Ends V) (guarded m) (guarded m') := by
  intro s s' hs
  obtain ⟨hx, ht⟩ := hm s s' hs
  unfold guarded
  rcases h : m s with ⟨x, t⟩
  rcases h' : m' s' with ⟨x', t'⟩
  rw [h, h'] at hx ht
  cases hx with
  | ok hv => exact ⟨.ok (.ok hv), ht⟩
  | error stop =>
    cases stop with
    | error e => exact ⟨.error _, ht⟩
    | panic q => exact ⟨.ok (.error q), ht⟩
    | hang => exact ⟨.error _, ht⟩

theorem matched_valueOr (default : α) {m m' : Run ω α} (hm : Matched R Eq m m') :
    Matched R Eq (valueOr default m) (valueOr default m') := by
  refine matched_bind (matched_attempt hm) fun x x' hx => ?_
  cases hx with
  | ok hv => exact matched_pure hv
  | error e => exact matched_pure rfl

theorem matched_always {m m' : Run ω Unit} (hm : Matched R Eq m m') :
    Matched R Eq (always m) (always m') := matched_valueOr () hm

theorem matched_shielded {m m' : Run ω Unit} (hm : Matched R Eq m m') :
    Matched R Eq (shielded m) (shielded m') :=
  matched_bind (matched_guarded (matched_always hm)) fun _ _ _ => matched_pure rfl

theorem matched_ensuring {m : Run ω α} {m' : Run ω β} {after after' : Run ω Unit}
    (hm : Matched R V m m') (hafter : Matched R Eq after after') :
    Matched R V (ensuring m after) (ensuring m' after') := by
  intro s s' hs
  obtain ⟨hx, ht, hF, hF'⟩ := hm s s' hs
  unfold ensuring
  rcases h : m s with ⟨x, t⟩
  rcases h' : m' s' with ⟨x', t'⟩
  rw [h] at hx ht hF
  rw [h'] at hx ht hF'
  obtain ⟨hy, hu, hG, hG'⟩ := hafter t t' ht
  rcases ha : after t with ⟨y, u⟩
  rcases ha' : after' t' with ⟨y', u'⟩
  rw [ha] at hy hu hG
  rw [ha'] at hy hu hG'
  have hend : Alike R u u' ∧ u.frame = s.frame ∧ u'.frame = s'.frame :=
    ⟨hu, hG.trans hF, hG'.trans hF'⟩
  cases hx with
  | ok hv =>
    dsimp only
    rw [ha, ha']
    cases hy with
    | ok => exact ⟨.ok hv, hend⟩
    | error stop => exact ⟨.error _, hend⟩
  | error stop =>
    cases stop with
    | error e =>
      dsimp only
      rw [ha, ha']
      cases hy with
      | ok => exact ⟨.error _, hend⟩
      | error stop => exact ⟨.error _, hend⟩
    | panic q =>
      dsimp only
      rw [ha, ha']
      cases hy with
      | ok => exact ⟨.error _, hend⟩
      | error stop => cases stop <;> exact ⟨.error _, hend⟩
    -- what never comes back is not cleaned up after
    | hang => exact ⟨.error _, ht, hF, hF'⟩

theorem matched_forM {τ : Type} {f f' : τ → Run ω Unit} (xs : List τ)
    (h : ∀ x ∈ xs, Matched R Eq (f x) (f' x)) : Matched R Eq (xs.forM f) (xs.forM f') := by
  induction xs with
  | nil => exact matched_pure rfl
  | cons x xs ih =>
    refine matched_bind_eq (h x (by simp)) fun _ => ih ?_
    intro y hy
    exact h y (by simp [hy])

theorem matched_party (p : Parties ω) {m m' : Play ω α} (h : Play.Parallel R m m') :
    Matched R Eq (party p m) (party p m') := by
  intro s s' hs
  obtain ⟨x, v, v', hm, hm', hv⟩ := h _ _ hs.outside
  unfold party
  rw [hm, hm']
  refine ⟨?_, { hs with outside := hv }, rfl, rfl⟩
  cases x with
  | ok a => exact .ok rfl
  | error stop => exact .error stop

theorem Matched.mono {m : Run ω α} {m' : Run ω β} {V' : α → β → Prop} (hm : Matched R V m m')
    (h : ∀ a b, V a b → V' a b) : Matched R V' m m' := fun s s' hs =>
  ⟨(hm s s' hs).1.mono h, (hm s s' hs).2⟩

theorem Matched.run {m m' : Run ω α} (hm : Matched R Eq m m') {s s' t : Session ω}
    (hs : Alike R s s') {x : Except Stop α} (hrun : m s = (x, t)) :
    ∃ t', m' s' = (x, t') ∧ Alike R t t' ∧ t.frame = s.frame ∧ t'.frame = s'.frame := by
  obtain ⟨hx, ht, hF, hF'⟩ := hm s s' hs
  rcases h' : m' s' with ⟨x', t'⟩
  rw [hrun] at hx ht hF
  rw [h'] at hx ht hF'
  obtain rfl : x = x' := hx.eq
  exact ⟨t', rfl, ht, hF, hF'⟩

end Run
end DatabaseSession
