import DatabaseSession.Backend
import DatabaseSession.Settings
import DatabaseSession.Signal
import DatabaseSession.Registry

namespace DatabaseSession

inductive ReconnectCause where
  /-- Asked for by a caller: one attempt. -/
  | user
  /-- Caused by a lost connection: several attempts. -/
  | automatic
  deriving DecidableEq, Repr

/-- What a connect attempt is made for. -/
inductive Attempt where
  | opening
  | reconnect (cause : ReconnectCause)
  deriving DecidableEq, Repr

inductive ConnectionNotice where
  | connecting (attempt : Attempt)
  | connected (attempt : Attempt)
  | failed (attempt : Attempt) (e : Error)
  deriving DecidableEq, Repr

inductive Milestone where
  | started
  | finished
  deriving DecidableEq, Repr

/-- Setup that is done anew on every connection. -/
structure Hook (ω : Type) where
  /-- Before every attempt. -/
  onConnect : Play ω Unit
  /-- On the fresh connection; an error fails the attempt. -/
  onConnected : Play ω Unit
  onFailed : Error → Play ω Unit
  /-- Once, before the release. -/
  onClose : Play ω Unit

/-- What a custom task is told about its session. -/
structure TaskView where
  sessionId : String
  autoReconnect : Bool
  statementRetries : Nat
  deriving DecidableEq, Repr

/-- The run of a custom task: turns, and automatic reconnects it asks for. -/
inductive Errand (ω : Type) where
  | done (x : Except Stop Unit) (w : ω)
  | ask (thread : Thread) (call : Call) (w : ω) (next : Answer → ω → Errand ω)
  | reconnect (w : ω) (next : Bool → ω → Errand ω)

structure CustomTask (ω : Type) where
  execute : TaskView → ω → Errand ω
  cancel : Play ω Unit
  fail : Error → Play ω Unit
  stats : Play ω RunStats

/-- All that a session meets outside itself. -/
structure Parties (ω : Type) where
  backend : Backend ω
  hooks : List (Hook ω) := []
  connectionObservers : List (ConnectionNotice → Play ω Unit) := []
  taskObservers : List (Milestone → Option String → Play ω Unit) := []
  /-- Puts an event into a receiver's inbox. -/
  post : Nat → Event → ω → ω
  callback : Nat → Event → Play ω Unit
  custom : Nat → CustomTask ω
  /-- Stops the statement behind an interrupter's handle. -/
  interrupt : Nat → ω → ω
  /-- Nanoseconds on a clock that only goes forward. -/
  clock : ω → Nat
  /-- Rows and result sets are awaited this often; a supply that lasts longer never ends. -/
  patience : Nat

/-- The owner of a backend: the options of the next connect and what became of it. -/
structure Link where
  options : Options := {}
  reconnects : Nat := 0
  released : Bool := false
  deriving Repr, Inhabited

inductive Request where
  | task (t : Task)
  | reconnect (options : Option Options) (ticket : Nat)
  | probe
  | close
  deriving Repr

inductive Life where
  | idle
  | threaded
  /-- Open, with tasks running in the caller. -/
  | inCaller
  | closed
  deriving DecidableEq, Repr, Inhabited

/-- The worker's end of a threaded session. -/
structure Mailbox where
  queue : List Request := []
  /-- The worker still takes requests. -/
  receiving : Bool := false
  /-- A keep-alive is on its way or in the queue. -/
  probePending : Bool := false
  /-- Time between keep-alive ticks, while the heartbeat runs. -/
  probing : Option Duration := none
  /-- Replies to reconnect requests by number; none when the worker went without replying. -/
  replies : List (Nat × Option (Except Error Unit)) := []
  tickets : Nat := 0
  deriving Repr, Inhabited

/-- What the backend reported about its latest published connection. -/
structure Published where
  info : Json
  defaultSchema : Option String := none
  interrupter : Option Nat := none
  deriving Repr, Inhabited

/-- A session and all that its handles and its worker share, over the state `ω` of the parties
outside. -/
structure Session (ω : Type) where
  id : String
  backendName : String
  settings : Settings
  autoReconnect : Bool
  life : Life := .idle
  /-- Somebody holds the life cycle, so that whoever asks for it waits. -/
  locked : Bool := false
  handles : Nat := 1
  terminated : Signal := {}
  killed : Bool := false
  registry : Registry := {}
  stats : LastRunStats := {}
  /-- A task runs and holds the statistics. -/
  statsHeld : Bool := false
  published : Published
  mailbox : Mailbox := {}
  trackers : Trackers := []
  link : Link
  /-- The task being run, or the one run last. -/
  active : Task := { work := .query {} }
  outside : ω

namespace Session

variable {ω : Type}

/-- A session around a backend. Nothing connects until it is started. -/
def create (id backendName : String) (options : Options) (settings : Settings) (w : ω) :
    Session ω where
  id
  backendName
  settings
  autoReconnect := options.autoReconnect
  published := { info := .object [("backend", .string backendName)] }
  link := { options }
  outside := w

def fault (s : Session ω) (fault : SessionFault) (message : String) : Error :=
  .session ⟨fault, s.id, message⟩

def alreadyClosed (s : Session ω) : Error := .closed s.id

def notYetOpen (s : Session ω) : Error :=
  s.fault .notOpen "The session has not been opened."

def isOpen (s : Session ω) : Bool :=
  (s.life == .threaded || s.life == .inCaller) && !s.terminated.isSet

/-- The session's description merged with what the backend reported. -/
def info (s : Session ω) : Json :=
  match s.published.info with
  | .object fields => .object
      (Fields.insert "auto_reconnect" (.bool s.autoReconnect)
        (Fields.insert "threaded" (.bool s.settings.threaded)
          (Fields.insert "id" (.string s.id) fields)))
  | j => j

end Session

namespace LastRunStats

def ofRun (t : RunStats) : LastRunStats :=
  ⟨t.lastError, t.executionTime, t.lastInsertId, t.rowsAffected⟩

end LastRunStats
end DatabaseSession
