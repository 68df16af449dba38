import DatabaseSession.Link

namespace DatabaseSession

namespace Task

variable {ω : Type}

def update (f : Task → Task) : Run ω Unit := modify fun s => { s with active := f s.active }

/-- Takes down what a statement has changed. -/
def count (stats : StatementStats) (t : Task) : Task :=
  { t with stats := { t.stats with
    rowsAffected := stats.rowsAffected, lastInsertId := stats.lastInsertId } }

def hand (p : Parties ω) (sink : Sink) (event : Event) : Run ω Unit :=
  match sink with
  | .discard => pure ()
  | .channel inbox => modify fun s => { s with outside := p.post inbox event s.outside }
  | .callback key => Run.always (Run.party p (p.callback key event))

/-- Sends an event of the task being run. The failure is tracked and the copy is kept before the
sink sees the event. -/
def emit (p : Parties ω) (state : Progress) (message : Option String)
    (data : Option EventData) (error : Option ErrorReport) : Run ω Unit := do
  let s ← get
  let d := s.active.courier
  match d.send state message data error with
  | none => pure ()
  | some sent =>
    let trackers := match d.tracker, sent.failure with
      | some name, some f => Trackers.add s.trackers name f
      | _, _ => s.trackers
    set { s with trackers, active := { s.active with courier := sent.next } }
    hand p d.sink sent.event

/-- Ends the task in an error, unless it has ended already. -/
def endInError (p : Parties ω) (e : Error) : Run ω Unit := do
  let s ← get
  if s.active.courier.terminal.isSome then return ()
  let report := ErrorReport.ofError e
  update fun t => { t with stats := { t.stats with lastError := some report } }
  emit p .error (some report.message) none (some report)

/-- Ends the task without running it. -/
def endCancelled (p : Parties ω) : Run ω Unit := do
  update fun t => { t with stats := { t.stats with cancelled := true } }
  emit p .cancelled none none none

/-- Takes down how long the task has run. -/
def clockOff (p : Parties ω) (started : Nat) : Run ω Unit := do
  let elapsed := Duration.ofNanos ((← Run.now p) - started)
  update fun t => { t with stats := { t.stats with executionTime := some elapsed } }

end Task

namespace Query

variable {ω : Type}

/-- How far the reading of a result set has come. -/
structure Reading where
  /-- No chunk has been sent yet. -/
  first : Bool := true
  buffer : Array Row := #[]
  fields : Array Json := #[]
  total : Nat := 0
  deriving Inhabited

def leadCell (row : Row) : Json := ((row.get? 0).map Value.toJson).getD .null

/-- The columns go with the first chunk only. -/
def Reading.header (r : Reading) (columns : List Column) : Option (List Column) :=
  if r.first then some columns else none

def Reading.rows (r : Reading) : List Json := r.buffer.toList.map Row.toJson

/-- Takes a row in; a full buffer is sent before, once there is a row beyond it. -/
def acceptRow (p : Parties ω) (q : Query) (columns : List Column) (r : Reading) (row : Row) :
    Run ω Reading := do
  let total := r.total + 1
  match q.shape with
  | .rows =>
    if 0 < q.packetSize ∧ q.packetSize ≤ r.buffer.size then
      Task.update fun t => { t with streamed := true }
      Task.emit p .pending none
        (some (.rows { columns := r.header columns, rows := r.rows, totalRowCount := r.total }))
        none
      return { r with first := false, buffer := #[row], total }
    else return { r with buffer := r.buffer.push row, total }
  | .oneField =>
    return { r with fields := if r.fields.isEmpty then #[leadCell row] else r.fields, total }
  | .oneFieldList => return { r with fields := r.fields.push (leadCell row), total }

/-- Reads the current result set to its end, looking at the kill switch before every row. -/
def readRows (p : Parties ω) (q : Query) (sql : String) (columns : List Column) :
    Nat → Reading → Run ω Reading
  | 0, _ => Run.hang
  | patience + 1, r => do
    if (← get).killed then Run.raise (Error.killed (some sql))
    match ← Run.party p p.backend.fetchRow with
    | none => return r
    | some row => readRows p q sql columns patience (← acceptRow p q columns r row)

/-- The value that stands for a result set in the shapes that show one. -/
def shaped (shape : Shape) (r : Reading) : Option Json :=
  match shape with
  | .rows => none
  | .oneField => some (r.fields.back?.getD .null)
  | .oneFieldList => some (.array r.fields.toList)

def endWell (p : Parties ω) (chunk : Chunk) (value : Option Json) : Run ω Unit :=
  Task.emit p .ok (some (Task.rowsTransferred chunk.totalRowCount))
    (some (match value with
      | some j => .result j
      | none => .rows chunk)) none

/-- Closes a result set: the last one of the last statement ends the task, the rows of any other
are sent on. -/
def closeSet (p : Parties ω) (q : Query) (columns : List Column) (r : Reading)
    (stats : StatementStats) (elapsed : Duration) (final : Bool) : Run ω Unit := do
  let chunk : Chunk := {
    columns := r.header columns
    rows := r.rows
    totalRowCount := r.total
    executionTime := some elapsed.toSeconds
    lastInsertId := stats.lastInsertId
    rowsAffected := some stats.rowsAffected
    done := final }
  if final then endWell p chunk (shaped q.shape r)
  else if q.shape = .rows then
    Task.update fun t => { t with streamed := true }
    Task.emit p .pending none (some (.rows chunk)) none

/-- At the end of a result set: what the statement has changed, and whether there is another set. -/
def endSet (p : Parties ω) : Run ω (StatementStats × Bool) := do
  let stats ← Run.valueOr {} (Run.party p p.backend.stats)
  Task.update (Task.count stats)
  let more ← Run.party p p.backend.nextResult
  return (stats, more)

/-- Reads a result set: its columns, what is left of its rows to be told, what the statement has
changed, and whether there is another set. -/
def takeSet (p : Parties ω) (q : Query) (sql : String) :
    Run ω (List Column × Reading × StatementStats × Bool) := do
  let columns ← Run.valueOr [] (Run.party p p.backend.columns)
  let r ← readRows p q sql columns p.patience {}
  let (stats, more) ← endSet p
  return (columns, r, stats, more)

/-- Reads a result set and closes it. Is there another one? -/
def readSet (p : Parties ω) (q : Query) (sql : String) (last : Bool) (started : Nat) :
    Run ω Bool := do
  let (columns, r, stats, more) ← takeSet p q sql
  let elapsed := Duration.ofNanos ((← Run.now p) - started)
  closeSet p q columns r stats elapsed (last && !more)
  return more

/-- Reads the result sets of the current statement. -/
def readSets (p : Parties ω) (q : Query) (sql : String) (last : Bool) (started : Nat) :
    Nat → Run ω Unit
  | 0 => Run.hang
  | patience + 1 => do
    if ← readSet p q sql last started then readSets p q sql last started patience

theorem readSets_succ (p : Parties ω) (q : Query) (sql : String) (last : Bool)
    (started patience : Nat) : readSets p q sql last started (patience + 1) = (do
      let (columns, r, stats, more) ← takeSet p q sql
      let elapsed := Duration.ofNanos ((← Run.now p) - started)
      closeSet p q columns r stats elapsed (last && !more)
      if more then readSets p q sql last started patience) := by
  simp only [readSets, readSet, bind_assoc, pure_bind]

def attemptStatement (p : Parties ω) (q : Query) (sql : String) (last : Bool) : Run ω Unit := do
  let started ← Run.now p
  Run.party p (p.backend.execute sql q.params)
  readSets p q sql last started p.patience

/-- What comes of a failed attempt. Whatever fails after a kill counts as killed; a statement that
lost its connection is run again once that is restored, unless rows of it have gone out. -/
def afterFailure (p : Parties ω) (sql : String) (e : Error) (again : Option (Run ω Unit)) :
    Run ω Unit := do
  let s ← get
  if s.killed && !e.isKilled then Run.raise (Error.killed (some sql))
  else
    match again with
    | some retry =>
      if e.losesConnection && !s.active.streamed then
        if ← Link.restore p then retry else Run.raise e
      else Run.raise e
    | none => Run.raise e

def runWithRetries (p : Parties ω) (q : Query) (sql : String) (last : Bool) : Nat → Run ω Unit
  | 0 => do
    match ← Run.attempt (attemptStatement p q sql last) with
    | .ok () => pure ()
    | .error e => afterFailure p sql e none
  | retries + 1 => do
    match ← Run.attempt (attemptStatement p q sql last) with
    | .ok () => pure ()
    | .error e => afterFailure p sql e (some (runWithRetries p q sql last retries))

def runStatements (p : Parties ω) (q : Query) : List String → Run ω Unit
  | [] => pure ()
  | sql :: rest => do
    Task.update fun t => { t with streamed := false }
    runWithRetries p q sql rest.isEmpty (← get).settings.statementRetries
    runStatements p q rest

/-- No statements at all make an empty result. -/
def run (p : Parties ω) (q : Query) : Run ω Unit :=
  if q.statements.isEmpty then
    endWell p { executionTime := some (Binary64.ofInt 0), done := true } none
  else runStatements p q q.statements

end Query

namespace Task

variable {ω : Type}

def runSchema (p : Parties ω) (action : SchemaRequest) : Run ω (Option String) := do
  if let .setCurrent schema := action then
    Run.party p (p.backend.setCurrentSchema schema)
  Run.valueOr none (Run.party p p.backend.currentSchema)

/-- Plays a custom task, restoring the connection where it asks for that. -/
def playErrand (p : Parties ω) : Errand ω → Session ω → Except Stop Unit × Session ω
  | .done x w, s => (x, { s with outside := w })
  | .ask thread call w next, s =>
    match Session.answer p thread call { s with outside := w } with
    | (some a, s) => playErrand p (next a s.outside) s
    | (none, s) => (.error .hang, s)
  | .reconnect w next, s =>
    match Link.restore p { s with outside := w } with
    | (.ok b, s) => playErrand p (next b s.outside) s
    | (.error stop, s) => (.error stop, s)

def context (s : Session ω) : TaskView :=
  ⟨s.id, s.link.options.autoReconnect, s.settings.statementRetries⟩

def execute (p : Parties ω) : Run ω Unit := do
  let s ← get
  match s.active.work with
  | .query q =>
    let started ← Run.now p
    emit p .pending (some startedMessage) none none
    let r ← Run.attempt (q.run p)
    clockOff p started
    match r with
    | .ok () => pure ()
    | .error e => endInError p e
  | .schema action =>
    let started ← Run.now p
    emit p .pending (some startedMessage) none none
    let r ← Run.attempt (runSchema p action)
    clockOff p started
    match r with
    | .ok schema => emit p .ok none (some (.result (Json.ofOption .string schema))) none
    | .error e => endInError p e
  | .custom key =>
    Run.always fun s => playErrand p ((p.custom key).execute (context s) s.outside) s

def cancel (p : Parties ω) : Run ω Unit := do
  match (← get).active.work with
  | .query _ | .schema _ => endCancelled p
  | .custom key => Run.always (Run.party p (p.custom key).cancel)

def fail (p : Parties ω) (e : Error) : Run ω Unit := do
  match (← get).active.work with
  | .query _ | .schema _ => endInError p e
  | .custom key => Run.always (Run.party p ((p.custom key).fail e))

def report (p : Parties ω) : Run ω RunStats := do
  match (← get).active.work with
  | .query _ | .schema _ => return (← get).active.stats
  | .custom key => Run.valueOr {} (Run.party p (p.custom key).stats)

def announce (p : Parties ω) (phase : Milestone) (requestId : Option String) : Run ω Unit :=
  p.taskObservers.forM fun observe => Run.shielded (Run.party p (observe phase requestId))

def panicError (q : Panic) : Error := .custom ("Task panicked: " ++ q.message)

/-- Runs a task, or cancels it if its id is marked. A panic in it ends it in an error. The
session's statistics become those of the task. -/
def perform (p : Parties ω) (t : Task) : Run ω Unit := do
  let s ← get
  let (cancelled, registry) := s.registry.beginOptional t.requestId
  set { s with registry, killed := false, active := t }
  announce p .started t.requestId
  modify fun s => { s with statsHeld := true }
  match ← Run.guarded (if cancelled then cancel p else execute p) with
  | .ok () => pure ()
  | .error q => Run.shielded (fail p (panicError q))
  let stats ← Run.onPanic (report p) (modify fun s => { s with statsHeld := false })
  modify fun s => { s with stats := LastRunStats.ofRun stats, statsHeld := false }
  announce p .finished t.requestId

end Task
end DatabaseSession
