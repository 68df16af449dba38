import DatabaseSession.Rehearsal.World

namespace DatabaseSession.Rehearsal.ScriptedBackend

def update (f : BackendState → BackendState) : Play World Unit :=
  Play.modify fun w => { w with backend := f w.backend }

def read : Play World BackendState := do return (← Play.get).backend

def note (e : Entry) : Play World Unit := Play.modify fun w => w.note e

def initial (b : ScriptedBackend) : BackendState :=
  { statements := b.statements, schema := b.schema }

/-- The first script for a text that can still be used, and the scripts after its use. -/
def takeStatement (sql : String) : List Statement → Option Statement × List Statement
  | [] => (none, [])
  | s :: rest =>
    if s.sql = sql ∧ s.times ≠ some 0 then
      (some s, { s with times := s.times.map (· - 1) } :: rest)
    else
      let (found, rest) := takeStatement sql rest
      (found, s :: rest)

def connect (b : ScriptedBackend) (o : Options) : Play World Unit := do
  note (.connect o)
  let n := (← read).connects
  update fun s => { s with connects := n + 1 }
  ((b.connects[n]?).getD .fine).play
  update fun s => { s with connected := true }

def leave (e : Entry) : Play World Unit := do
  note e
  update fun s => { s with connected := false }

def interruptedError (sql : String) : Error :=
  .query { fault := .interrupted, origin := .driver, sql := some sql, message := "interrupted" }

def execute (sql : String) (params : List Value) : Play World Unit := do
  note (.execute sql params)
  let s ← read
  if !s.connected then Play.fail (.unconnected .driver)
  let (found, statements) := takeStatement sql s.statements
  update fun s => { s with statements, sets := [], fetched := 0 }
  if let some script := found then
    if script.gated then
      if !(← passGate) then Play.fail (interruptedError sql)
    if script.drops then update fun s => { s with connected := false }
    script.fate.play
    update fun s => { s with sets := script.sets }

def current : Play World ResultSet := do return ((← read).sets.head?).getD {}

def fetchRow : Play World (Option Row) := do
  let set ← current
  let s ← read
  if let some fault := set.fetchFault then
    if fault.after = s.fetched then
      if fault.drops then update fun s => { s with connected := false }
      Play.fail fault.error
  let rest := { set with rows := set.rows.drop 1 }
  update fun s => { s with
    fetched := s.fetched + 1
    sets := if s.sets.isEmpty then [] else rest :: s.sets.drop 1 }
  return set.rows.head?.map (Row.mk set.columns)

def nextResult : Play World Bool := do
  if let some e := (← current).nextFault then Play.fail e
  match (← read).sets with
  | _ :: next :: rest =>
    update fun s => { s with sets := next :: rest, fetched := 0 }
    return true
  | _ => return false

def ping (b : ScriptedBackend) : Play World Unit := do
  if b.logsPings then note .ping
  let n := (← read).pings
  update fun s => { s with pings := n + 1 }
  ((b.pings[n]?).getD .fine).play

def unknownDatabase (schema : String) : Error :=
  .query {
    fault := .notFound
    origin := .database
    code := some 1049
    sqlstate := some "42000"
    message := "Unknown database '" ++ schema ++ "'" }

def setSchema (b : ScriptedBackend) (schema : String) : Play World Unit := do
  note (.setSchema schema)
  b.schemaFate.play
  if b.schemas.contains schema then update fun s => { s with schema := some schema }
  else Play.fail (unknownDatabase schema)

def report (b : ScriptedBackend) (s : BackendState) : Json :=
  b.info.getD (Json.obj [("backend", .string b.name), ("connects", Json.ofNat s.connects)])

def interrupt (w : World) : World :=
  let w := w.note .interrupt
  { w with backend := { w.backend with interrupted := true } }

def backend (b : ScriptedBackend) : Backend World where
  name := b.name
  connect := connect b
  disconnect := leave .disconnect
  release := leave .release
  isConnected := fun w => w.backend.connected
  execute := execute
  columns := do return (← current).columns
  fetchRow := fetchRow
  nextResult := nextResult
  stats := do return (← current).stats
  ping := ping b
  info := do return report b (← read)
  defaultSchema := pure b.schema
  currentSchema := do return (← read).schema
  setCurrentSchema := setSchema b
  interrupter := pure (if b.interruptible then some 0 else none)
  dispose := pure ()

end DatabaseSession.Rehearsal.ScriptedBackend
