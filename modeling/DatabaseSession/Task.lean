import DatabaseSession.Courier
import DatabaseSession.Duration

namespace DatabaseSession

structure RunStats where
  lastError : Option ErrorReport := none
  executionTime : Option Duration := none
  lastInsertId : Option Int := none
  rowsAffected : Nat := 0
  cancelled : Bool := false
  deriving DecidableEq, Repr, Inhabited

/-- How a query shows the rows it reads. -/
inductive Shape where
  /-- Every row, streamed in chunks. -/
  | rows
  /-- The first cell of the first row. -/
  | oneField
  /-- The first cell of every row. -/
  | oneFieldList
  deriving DecidableEq, Repr, Inhabited

/-- Statements to run in order, each with the same parameters. -/
structure Query where
  statements : List String := []
  params : List Value := []
  /-- Most rows in a chunk; zero for no limit. -/
  packetSize : Nat := 0
  shape : Shape := .rows
  deriving DecidableEq, Repr, Inhabited

inductive SchemaRequest where
  | current
  | setCurrent (schema : String)
  deriving DecidableEq, Repr

inductive Work where
  | query (q : Query)
  | schema (action : SchemaRequest)
  /-- A task of the caller's own making. -/
  | custom (key : Nat)
  deriving DecidableEq, Repr, Inhabited

/-- A unit of work with the courier of its events and what it reports. -/
structure Task where
  work : Work
  courier : Courier := {}
  stats : RunStats := {}
  /-- Rows of the current statement have reached the sink. -/
  streamed : Bool := false
  /-- The sink keeps a handle of the session for as long as the task is there. -/
  keepsHandle : Bool := false
  deriving DecidableEq, Repr, Inhabited

structure Outcome where
  state : Progress
  events : List Event
  stats : RunStats
  deriving DecidableEq, Repr

namespace Query

def ofText (sql : String) : Query := { statements := [sql] }

/-- A packet size below zero means no limit, as zero does. -/
def packetOfInt (size : Int) : Nat := size.toNat

end Query

namespace Task

def requestId (t : Task) : Option String := t.courier.requestId

/-- How many handles of the session go with the task. -/
def handles (t : Task) : Nat := if t.keepsHandle then 1 else 0

def keepingEvents (t : Task) : Task := { t with courier := t.courier.startRecording }

def outcome (t : Task) : Outcome :=
  ⟨t.courier.terminal.getD .pending, t.courier.stopRecording.1, t.stats⟩

def ofText (sql : String) : Task := { work := .query (.ofText sql) }

def beginTransaction : Task := .ofText "BEGIN"

def commit : Task := .ofText "COMMIT"

def rollback : Task := .ofText "ROLLBACK"

def startedMessage : String := "Execution started..."

def rowsTransferred (count : Nat) : String :=
  if count = 1 then "Full result set consisting of 1 row transferred."
  else "Full result set consisting of " ++ toString count ++ " rows transferred."

end Task
end DatabaseSession
