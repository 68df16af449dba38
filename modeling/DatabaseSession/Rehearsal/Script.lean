import DatabaseSession.Session
import DatabaseSession.Sqlite.Library

namespace DatabaseSession.Rehearsal

/-- How a scripted call comes out. -/
inductive Fate where
  | fine
  | error (e : Error)
  | panic (p : Panic)
  deriving DecidableEq, Inhabited

/-- Every fetch fails that is made after exactly so many good ones. -/
structure FetchFault where
  after : Nat
  error : Error
  drops : Bool := false

structure ResultSet where
  columns : List Column := []
  rows : List (List Value) := []
  stats : StatementStats := {}
  fetchFault : Option FetchFault := none
  /-- Fails the step to the next set. -/
  nextFault : Option Error := none
  deriving Inhabited

/-- What a backend does with a statement text. -/
structure Statement where
  sql : String
  times : Option Nat := none
  /-- The statement waits for a permit. -/
  gated : Bool := false
  drops : Bool := false
  fate : Fate := .fine
  sets : List ResultSet := []
  deriving Inhabited

structure ScriptedBackend where
  name : String := "Mock"
  connects : List Fate := []
  pings : List Fate := []
  logsPings : Bool := true
  statements : List Statement := []
  schema : Option String := none
  schemas : List String := []
  /-- What every switch of the schema comes to, before the name is looked at. -/
  schemaFate : Fate := .fine
  interruptible : Bool := true
  /-- What it says of itself, if not its name and the number of connects. -/
  info : Option Json := none
  deriving Inhabited

/-- A failing call of the library; the code zero does not fail. -/
structure Fault where
  code : Int := 0
  /-- What the handle gives as the error's code afterwards, if not that code. -/
  exactCode : Option Int := none
  message : Option (List UInt8) := none
  deriving Inhabited

structure Opening where
  fault : Fault := {}
  withoutHandle : Bool := false
  changes : Int := 0
  rowid : Int := 0
  deriving Inhabited

structure Step where
  /-- Blocks until the handle is interrupted. -/
  waits : Bool := false
  changes : Option Int := none
  total : Option Int := none
  rowid : Option Int := none
  row : Option (List Sqlite.Cell) := none
  fault : Fault := { code := Sqlite.doneCode }
  deriving Inhabited

structure Compiled where
  sql : String := ""
  times : Option Nat := none
  /-- Where the rest of the text begins, if the script says so; none for no rest at all. -/
  tail : Option (Option Nat) := none
  preparing : Fault := {}
  withoutStatement : Bool := false
  parameters : Int := 0
  bindings : List Fault := []
  columns : List (Option (List UInt8) × Option (List UInt8)) := []
  steps : List Step := []
  deriving Inhabited

structure Engine where
  openings : List Opening := []
  statements : List Compiled := []
  deriving Inhabited

inductive Setup where
  | fate (f : Fate)
  | execute (sql : String)
  deriving Inhabited

/-- A setup hook; one without a name does nothing. -/
structure ScriptedHook where
  name : Option String := none
  setups : List Setup := []
  deriving Inhabited

inductive Deed where
  | panic (p : Panic)
  | call (name : String) (c : Call)

/-- A callback with its deeds, each after the event of a number. -/
structure Listener where
  deeds : List (Nat × Deed) := []
  deriving Inhabited

inductive Action where
  | sessionId
  | isKilled
  | autoReconnect
  | statementRetries
  | reconnect
  | isConnected
  | disconnect
  | gate
  | execute (sql : String)
  | panic (p : Panic)

namespace Action

def name : Action → String
  | sessionId => "session_id"
  | isKilled => "is_killed"
  | autoReconnect => "auto_reconnect"
  | statementRetries => "statement_retries"
  | reconnect => "reconnect"
  | isConnected => "is_connected"
  | disconnect => "disconnect"
  | gate => "gate"
  | execute _ => "execute"
  | panic _ => "panic"

end Action

structure Assignment where
  id : Option String := none
  actions : List Action := []
  stats : RunStats := {}
  cancelPanic : Option Panic := none
  failPanic : Option Panic := none
  statsPanic : Option Panic := none
  deriving Inhabited

end DatabaseSession.Rehearsal
