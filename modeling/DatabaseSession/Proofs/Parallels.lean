import DatabaseSession.Proofs.Ending
import DatabaseSession.Proofs.Likeness

namespace DatabaseSession

open Run Session

variable {ω α : Type} {p : Parties ω} {R : ω → ω → Prop}

namespace Link

theorem matched_announce (hp : p.Oblivious R) (notice : ConnectionNotice) :
    Matched R Eq (announce p notice) (announce p notice) :=
  matched_forM _ fun observe hobserve =>
    matched_shielded (matched_party p (hp.connectionObservers observe hobserve notice))

theorem matched_ensureHeld : Matched R Eq (ensureHeld : Run ω Unit) ensureHeld := by
  refine matched_bind matched_get fun s s' hs => ?_
  rw [alreadyClosed, alreadyClosed, hs.link, hs.id]
  split
  · exact matched_raise _
  · exact matched_pure rfl

theorem matched_establish (hp : p.Oblivious R) : Matched R Eq (establish p) (establish p) := by
  refine matched_bind matched_get fun s s' hs => ?_
  rw [hs.link]
  exact matched_bind_eq (matched_party p (hp.backend.connect _)) fun _ =>
    matched_forM _ fun hook hhook => matched_party p (hp.hooks hook hhook).onConnected

theorem matched_tryConnect (hp : p.Oblivious R) (attempt : Attempt) :
    Matched R Eq (tryConnect p attempt) (tryConnect p attempt) := by
  have hconnect := matched_forM p.hooks fun hook hhook =>
    matched_always (matched_party p (hp.hooks hook hhook).onConnect)
  refine matched_bind_eq hconnect fun _ => matched_bind_eq (matched_announce hp _) fun _ =>
    matched_bind (matched_attempt (matched_establish hp)) fun r r' hr => ?_
  cases hr with
  | ok => exact matched_announce hp _
  | error e =>
    refine matched_bind_eq (matched_forM _ fun hook hhook => ?_) fun _ =>
      matched_bind_eq (matched_announce hp _) fun _ => matched_raise e
    exact matched_always (matched_party p ((hp.hooks hook hhook).onFailed e))

theorem matched_connect (hp : p.Oblivious R) : Matched R Eq (connect p) (connect p) :=
  matched_bind_eq matched_ensureHeld fun _ => matched_tryConnect hp _

theorem matched_reconnectOnce (hp : p.Oblivious R) (cause : ReconnectCause) :
    Matched R Eq (reconnectOnce p cause) (reconnectOnce p cause) := by
  refine matched_bind_eq (matched_always (matched_party p hp.backend.disconnect)) fun _ =>
    matched_bind_eq (matched_tryConnect hp _) fun _ =>
      matched_modify (fun s s' hs => ?_) (fun _ => rfl) fun _ => rfl
  exact { hs with link := by rw [hs.link] }

theorem matched_reconnectUpTo (hp : p.Oblivious R) (cause : ReconnectCause) (more : Nat) :
    Matched R Eq (reconnectUpTo p cause more) (reconnectUpTo p cause more) := by
  induction more with
  | zero => exact matched_reconnectOnce hp cause
  | succ more ih =>
    refine matched_bind (matched_attempt (matched_reconnectOnce hp cause)) fun r r' hr => ?_
    cases hr with
    | ok => exact matched_pure rfl
    | error => exact ih

theorem matched_reconnect (hp : p.Oblivious R) (cause : ReconnectCause) :
    Matched R Eq (reconnect p cause) (reconnect p cause) := by
  refine matched_bind_eq matched_ensureHeld fun _ => matched_bind matched_get fun s s' hs => ?_
  have hattempts : attempts s.settings cause = attempts s'.settings cause := by
    cases cause with
    | user => rfl
    | automatic => rw [attempts, attempts, hs.attempts]
  rw [hattempts]
  exact matched_reconnectUpTo hp cause _

theorem matched_restore (hp : p.Oblivious R) : Matched R Eq (restore p) (restore p) := by
  refine matched_bind matched_get fun s s' hs => ?_
  rw [hs.link]
  split
  · refine matched_bind (matched_attempt (matched_reconnect hp .automatic)) fun r r' hr => ?_
    cases hr <;> exact matched_pure rfl
  · exact matched_pure rfl

def markReleased (s : Session ω) : Session ω := { s with link := { s.link with released := true } }

theorem matched_markReleased : Matched R Eq (modify markReleased : Run ω Unit)
    (modify markReleased) := by
  refine matched_modify (fun s s' hs => ?_) (fun _ => rfl) fun _ => rfl
  have hlink : { s.link with released := true } = { s'.link with released := true } := by
    rw [hs.link]
  exact { hs with link := hlink }

theorem matched_release (hp : p.Oblivious R) : Matched R Eq (release p) (release p) := by
  intro s s' hs
  unfold release
  rw [get_bind_apply, get_bind_apply, ← hs.link]
  split
  · exact ⟨.ok rfl, hs, rfl, rfl⟩
  · have hclose := matched_forM p.hooks fun hook hhook =>
      matched_always (matched_party p (hp.hooks hook hhook).onClose)
    have hteardown := matched_bind_eq matched_markReleased fun _ => matched_bind_eq hclose fun _ =>
      matched_always (matched_party p hp.backend.release)
    have h := hteardown s s' hs
    rw [bind_apply, bind_apply, modify_apply, modify_apply, markReleased, markReleased,
      ← hs.link] at h
    exact h

theorem matched_drop (hp : p.Oblivious R) : Matched R Eq (drop p) (drop p) :=
  matched_ensuring (matched_release hp) (matched_always (matched_party p hp.backend.dispose))

theorem matched_publish (hp : p.Oblivious R) : Matched R Eq (publish p) (publish p) := by
  refine matched_bind_eq (matched_valueOr _ (matched_party p hp.backend.info)) fun info =>
    matched_bind_eq (matched_modify (fun s s' hs => ?_) (fun _ => rfl) fun _ => rfl) fun _ =>
    matched_bind_eq (matched_valueOr _ (matched_party p hp.backend.defaultSchema)) fun schema =>
    matched_bind_eq (matched_modify (fun s s' hs => ?_) (fun _ => rfl) fun _ => rfl) fun _ =>
    matched_bind_eq (matched_valueOr _ (matched_party p hp.backend.interrupter)) fun handle =>
    matched_modify (fun s s' hs => ?_) (fun _ => rfl) fun _ => rfl
  all_goals exact { hs with published := by rw [hs.published] }

end Link

namespace Task

theorem matched_update {f f' : Task → Task} (h : ∀ t t', Alike t t' → Alike (f t) (f' t')) :
    Matched R Eq (update f : Run ω Unit) (update f') :=
  matched_modify (fun _ _ hs => { hs with active := h _ _ hs.active }) (fun _ => rfl) fun _ => rfl

theorem matched_hand (hp : p.Oblivious R) (sink : Sink) {e e' : Event}
    (he : e.untimed = e'.untimed) : Matched R Eq (hand p sink e) (hand p sink e') := by
  cases sink with
  | discard => exact matched_pure rfl
  | channel inbox =>
    refine matched_modify (fun s s' hs => ?_) (fun _ => rfl) fun _ => rfl
    exact { hs with outside := hp.post inbox e e' _ _ he hs.outside }
  | callback key => exact matched_always (matched_party p (hp.callback key e e' he))

theorem matched_emit (hp : p.Oblivious R) (state : Progress) (message : Option String)
    {data data' : Option EventData}
    (hdata : data.map EventData.untimed = data'.map EventData.untimed)
    (error : Option ErrorReport) :
    Matched R Eq (emit p state message data error) (emit p state message data' error) := by
  intro s s' hs
  have hsame := hs.active.terminal
  cases hterm : s.active.courier.terminal with
  | some st =>
    rw [hterm] at hsame
    rw [emit_closed _ _ _ _ _ s (by simp [hterm]), emit_closed _ _ _ _ _ s' (by simp [← hsame])]
    exact ⟨.ok rfl, hs, rfl, rfl⟩
  | none =>
    rw [hterm] at hsame
    rw [emit_open _ _ _ _ _ s hterm, emit_open _ _ _ _ _ s' hsame.symm, hs.active.sink,
      hs.active.requestId]
    refine matched_hand hp _ (by simp [Event.untimed, hdata]) _ _ { hs with
      trackers := ?_, active := { hs.active with terminal := rfl } }
    simp only [book, hs.active.tracker, hs.trackers]
    rfl

theorem matched_endInError (hp : p.Oblivious R) (e : Error) :
    Matched R Eq (endInError p e) (endInError p e) := by
  refine matched_bind matched_get fun s s' hs => ?_
  rw [hs.active.terminal]
  split
  · exact matched_pure rfl
  · refine matched_bind_eq (matched_update fun t t' ht => ?_) fun _ =>
      matched_emit hp _ _ rfl _
    have hstats : { t.stats.untimed with lastError := some (ErrorReport.ofError e) } =
      { t'.stats.untimed with lastError := some (ErrorReport.ofError e) } := by rw [ht.stats]
    exact { ht with stats := hstats }

theorem matched_clockOff (p : Parties ω) (started started' : Nat) :
    Matched R Eq (clockOff p started) (clockOff p started') := by
  refine matched_bind (matched_now p) fun now now' _ => matched_update fun t t' ht => ?_
  have hstats : { t.stats.untimed with executionTime := some ⟨0, 0⟩ } =
    { t'.stats.untimed with executionTime := some ⟨0, 0⟩ } := by rw [ht.stats]
  exact { ht with stats := hstats }

theorem matched_stream (hp : p.Oblivious R) {chunk chunk' : Chunk}
    (h : chunk.untimed = chunk'.untimed) :
    Matched R Eq (stream p chunk) (stream p chunk') :=
  matched_bind_eq (matched_update fun _ _ ht => { ht with streamed := rfl }) fun _ =>
    matched_emit hp _ _ (by simp [EventData.untimed, h]) _

end Task

namespace Query

theorem matched_acceptRow (hp : p.Oblivious R) (q : Query) (columns : List Column) (r : Reading)
    (row : Row) :
    Matched R Eq (acceptRow p q columns r row) (acceptRow p q columns r row) := by
  unfold acceptRow
  cases q.shape with
  | rows =>
    dsimp only
    split
    · exact matched_bind_eq (Task.matched_update fun _ _ ht => { ht with streamed := rfl }) fun _ =>
        matched_bind_eq (Task.matched_emit hp _ _ rfl _) fun _ => matched_pure rfl
    · exact matched_pure rfl
  | oneField => exact matched_pure rfl
  | oneFieldList => exact matched_pure rfl

theorem matched_unlessKilled (sql : String) {m m' : Run ω α} (hm : Matched R Eq m m') :
    Matched R Eq (do
      if (← get).killed then Run.raise (Error.killed (some sql))
      m) (do
      if (← get).killed then Run.raise (Error.killed (some sql))
      m') := by
  refine matched_bind matched_get fun s s' hs => ?_
  rw [hs.killed]
  split
  · exact matched_bind_eq (matched_raise _) fun _ => hm
  · exact hm

theorem matched_readRows (hp : p.Oblivious R) (q : Query) (sql : String) (columns : List Column)
    (patience : Nat) (r : Reading) :
    Matched R Eq (readRows p q sql columns patience r) (readRows p q sql columns patience r) := by
  induction patience generalizing r with
  | zero => exact matched_hang
  | succ patience ih =>
    refine matched_unlessKilled sql
      (matched_bind_eq (matched_party p hp.backend.fetchRow) fun row => ?_)
    cases row with
    | none => exact matched_pure rfl
    | some row => exact matched_bind_eq (matched_acceptRow hp q columns r row) fun r' => ih r'

theorem matched_endWell (hp : p.Oblivious R) {chunk chunk' : Chunk}
    (h : chunk.untimed = chunk'.untimed) (value : Option Json) :
    Matched R Eq (endWell p chunk value) (endWell p chunk' value) := by
  have hcount : chunk.untimed.totalRowCount = chunk'.untimed.totalRowCount := by rw [h]
  change chunk.totalRowCount = chunk'.totalRowCount at hcount
  unfold endWell
  rw [hcount]
  refine Task.matched_emit hp _ _ ?_ _
  cases value with
  | none => simp [EventData.untimed, h]
  | some j => rfl

theorem matched_closeSet (hp : p.Oblivious R) (q : Query) (columns : List Column) (r : Reading)
    (stats : StatementStats) (elapsed elapsed' : Duration) (final : Bool) :
    Matched R Eq (closeSet p q columns r stats elapsed final)
      (closeSet p q columns r stats elapsed' final) := by
  unfold closeSet
  dsimp only
  split
  · exact matched_endWell hp (by simp only [Chunk.untimed, Option.map_some]) _
  · split
    · exact Task.matched_stream hp (by simp only [Chunk.untimed, Option.map_some])
    · exact matched_pure rfl

theorem matched_endSet (hp : p.Oblivious R) : Matched R Eq (endSet p) (endSet p) := by
  refine matched_bind_eq (matched_valueOr _ (matched_party p hp.backend.stats)) fun stats =>
    matched_bind_eq (Task.matched_update fun t t' ht => ?_) fun _ =>
    matched_bind_eq (matched_party p hp.backend.nextResult) fun _ => matched_pure rfl
  have hstats : { t.stats.untimed with
      rowsAffected := stats.rowsAffected, lastInsertId := stats.lastInsertId } =
    { t'.stats.untimed with
      rowsAffected := stats.rowsAffected, lastInsertId := stats.lastInsertId } := by
    rw [ht.stats]
  exact { ht with stats := hstats }

theorem matched_takeSet (hp : p.Oblivious R) (q : Query) (sql : String) :
    Matched R Eq (takeSet p q sql) (takeSet p q sql) :=
  matched_bind_eq (matched_valueOr _ (matched_party p hp.backend.columns)) fun columns =>
    matched_bind_eq (matched_readRows hp q sql columns _ _) fun _ =>
    matched_bind_eq (matched_endSet hp) fun _ => matched_pure rfl

theorem matched_readSet (hp : p.Oblivious R) (q : Query) (sql : String) (last : Bool)
    (started started' : Nat) :
    Matched R Eq (readSet p q sql last started) (readSet p q sql last started') :=
  matched_bind_eq (matched_takeSet hp q sql) fun (columns, r, stats, _) =>
    matched_bind (matched_now p) fun _ _ _ =>
    matched_bind_eq (matched_closeSet hp q columns r stats _ _ _) fun _ => matched_pure rfl

theorem matched_readSets (hp : p.Oblivious R) (q : Query) (sql : String) (last : Bool)
    (started started' patience : Nat) :
    Matched R Eq (readSets p q sql last started patience)
      (readSets p q sql last started' patience) := by
  induction patience with
  | zero => exact matched_hang
  | succ patience ih =>
    refine matched_bind_eq (matched_readSet hp q sql last started started') fun more => ?_
    split
    · exact ih
    · exact matched_pure rfl

theorem matched_attemptStatement (hp : p.Oblivious R) (q : Query) (sql : String) (last : Bool) :
    Matched R Eq (attemptStatement p q sql last) (attemptStatement p q sql last) :=
  matched_bind (matched_now p) fun _ _ _ =>
    matched_bind_eq (matched_party p (hp.backend.execute sql q.params)) fun _ =>
      matched_readSets hp q sql last _ _ _

theorem matched_afterFailure (hp : p.Oblivious R) (sql : String) (e : Error)
    (again : Option (Run ω Unit)) (hagain : ∀ retry ∈ again, Matched R Eq retry retry) :
    Matched R Eq (afterFailure p sql e again) (afterFailure p sql e again) := by
  refine matched_bind matched_get fun s s' hs => ?_
  rw [hs.killed, hs.active.streamed]
  split
  · exact matched_raise _
  · cases again with
    | none => exact matched_raise e
    | some retry =>
      dsimp only
      split
      · refine matched_bind_eq (Link.matched_restore hp) fun back => ?_
        split
        · exact hagain retry rfl
        · exact matched_raise e
      · exact matched_raise e

theorem matched_runWithRetries (hp : p.Oblivious R) (q : Query) (sql : String) (last : Bool)
    (retries : Nat) :
    Matched R Eq (runWithRetries p q sql last retries) (runWithRetries p q sql last retries) := by
  have hattempt := matched_attempt (matched_attemptStatement hp q sql last)
  induction retries with
  | zero =>
    refine matched_bind hattempt fun r r' hr => ?_
    cases hr with
    | ok => exact matched_pure rfl
    | error e => exact matched_afterFailure hp sql e none (by simp)
  | succ retries ih =>
    refine matched_bind hattempt fun r r' hr => ?_
    cases hr with
    | ok => exact matched_pure rfl
    | error e => exact matched_afterFailure hp sql e _ (by simpa using ih)

theorem matched_runStatements (hp : p.Oblivious R) (q : Query) (statements : List String) :
    Matched R Eq (runStatements p q statements) (runStatements p q statements) := by
  induction statements with
  | nil => exact matched_pure rfl
  | cons sql rest ih =>
    refine matched_bind_eq (Task.matched_update fun _ _ ht => { ht with streamed := rfl })
      fun _ => matched_bind matched_get fun s s' hs => ?_
    rw [hs.retries]
    exact matched_bind_eq (matched_runWithRetries hp q sql _ _) fun _ => ih

theorem matched_run (hp : p.Oblivious R) (q : Query) : Matched R Eq (q.run p) (q.run p) := by
  unfold run
  split
  · exact matched_endWell hp rfl _
  · exact matched_runStatements hp q _

end Query

namespace Task

theorem matched_runSchema (hp : p.Oblivious R) (action : SchemaRequest) :
    Matched R Eq (runSchema p action) (runSchema p action) := by
  have hread := matched_valueOr none (matched_party p hp.backend.currentSchema)
  cases action with
  | current => exact hread
  | setCurrent schema =>
    exact matched_bind_eq (matched_party p (hp.backend.setCurrentSchema schema)) fun _ => hread

theorem matched_conclude (hp : p.Oblivious R) (started started' : Nat) {m : Run ω α}
    {finish : α → Run ω Unit} (hm : Matched R Eq m m)
    (hfinish : ∀ a, Matched R Eq (finish a) (finish a)) :
    Matched R Eq (conclude p started m finish) (conclude p started' m finish) := by
  refine matched_bind (matched_attempt hm) fun r r' hr =>
    matched_bind_eq (matched_clockOff p _ _) fun _ => ?_
  cases hr with
  | ok hv =>
    subst hv
    exact hfinish _
  | error e => exact matched_endInError hp e

theorem matched_pursue (hp : p.Oblivious R) (started started' : Nat) (w : Work) :
    Matched R Eq (pursue p started w) (pursue p started' w) := by
  cases w with
  | query q => exact matched_conclude hp _ _ (Query.matched_run hp q) fun _ => matched_pure rfl
  | schema action =>
    exact matched_conclude hp _ _ (matched_runSchema hp action) fun _ => matched_emit hp _ _ rfl _
  | custom key => exact matched_pure rfl

theorem matched_execute (hp : p.Oblivious R) : Matched R Eq (execute p) (execute p) := by
  intro s s' hs
  have hwork := hs.active.work
  rw [execute_builtIn p s hs.active.builtIn, execute_builtIn p s' (hwork ▸ hs.active.builtIn),
    ← hwork]
  exact matched_bind (matched_now p) (fun _ _ _ =>
    matched_bind_eq (matched_emit hp _ _ rfl _) fun _ => matched_pursue hp _ _ _) s s' hs

theorem matched_fail (hp : p.Oblivious R) (e : Error) :
    Matched R Eq (fail p e) (fail p e) := by
  intro s s' hs
  rw [fail_builtIn p e s hs.active.builtIn,
    fail_builtIn p e s' (hs.active.work ▸ hs.active.builtIn)]
  exact matched_endInError hp e s s' hs

theorem matched_announce (hp : p.Oblivious R) (phase : Milestone) (requestId : Option String) :
    Matched R Eq (announce p phase requestId) (announce p phase requestId) :=
  matched_forM _ fun observe hobserve =>
    matched_shielded (matched_party p (hp.taskObservers observe hobserve phase requestId))

theorem matched_undertake (hp : p.Oblivious R) :
    Matched R Eq (undertake p false) (undertake p false) := by
  refine matched_bind (matched_guarded (matched_execute hp)) fun r r' hr => ?_
  cases hr with
  | ok => exact matched_pure rfl
  | error q => exact matched_shielded (matched_fail hp _)

theorem matched_account (p : Parties ω) : Matched R Eq (account p) (account p) := by
  intro s s' hs
  rw [account_builtIn p s hs.active.builtIn,
    account_builtIn p s' (hs.active.work ▸ hs.active.builtIn)]
  refine ⟨.ok rfl, { hs with statsHeld := rfl, stats := ?_ }, rfl, rfl⟩
  rw [LastRunStats.untimed_ofRun, LastRunStats.untimed_ofRun, hs.active.stats]

/-- A task that is not cancelled, run in two sessions that are alike once it is taken up. -/
theorem perform_matched (hp : p.Oblivious R) {t t' : Task} {s s' : Session ω}
    (hmarked : marked t s = false) (hmarked' : marked t' s' = false)
    (hs : Session.Alike R (takeUp t s) (takeUp t' s')) :
    Ends Eq (perform p t s).1 (perform p t' s').1 ∧
      Session.Alike R (perform p t s).2 (perform p t' s').2 ∧
      (perform p t s).2.frame = (takeUp t s).frame ∧
      (perform p t' s').2.frame = (takeUp t' s').frame := by
  have hhold : Matched R Eq (modify holdStats : Run ω Unit) (modify holdStats) :=
    matched_modify (fun _ _ hs => { hs with statsHeld := rfl }) (fun _ => rfl) fun _ => rfl
  have hid : t.requestId = t'.requestId := hs.active.requestId
  rw [perform_eq, perform_eq, hmarked, hmarked', ← hid]
  exact matched_bind_eq (matched_announce hp _ _) (fun _ => matched_bind_eq hhold fun _ =>
    matched_bind_eq (matched_undertake hp) fun _ => matched_bind_eq (matched_account p) fun _ =>
    matched_announce hp _ _) _ _ hs

end Task
end DatabaseSession
