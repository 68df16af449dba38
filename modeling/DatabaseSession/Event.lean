import DatabaseSession.Error
import DatabaseSession.Row

namespace DatabaseSession

/-- Where a task stands when it sends an event. -/
inductive Progress where
  | pending
  | ok
  | error
  | cancelled
  deriving DecidableEq, Repr, Inhabited

namespace Progress

def name : Progress → String
  | .pending => "PENDING"
  | .ok => "OK"
  | .error => "ERROR"
  | .cancelled => "CANCELLED"

def isTerminal : Progress → Bool
  | .pending => false
  | _ => true

def isFailure : Progress → Bool
  | .error | .cancelled => true
  | _ => false

end Progress

/-- One streamed piece of a result set. -/
structure Chunk where
  /-- Only on the first chunk of a result set. -/
  columns : Option (List Column) := none
  rows : List Json := []
  /-- Rows of this result set sent so far, this chunk's included. -/
  totalRowCount : Nat := 0
  /-- Seconds since the statement started. -/
  executionTime : Option Binary64 := none
  lastInsertId : Option Int := none
  rowsAffected : Option Nat := none
  done : Bool := false
  deriving DecidableEq, Repr, Inhabited

namespace Chunk

def toFields (c : Chunk) : List (String × Json) :=
  (match c.columns with
    | some cs => [("columns", .array (cs.map Column.toJson))]
    | none => [])
  ++ [("rows", .array c.rows), ("total_row_count", Json.ofNat c.totalRowCount)]
  ++ (match c.executionTime with
    | some t => [("execution_time", Json.ofBinary64 t)]
    | none => [])
  ++ (match c.lastInsertId with
    | some i => [("last_insert_id", .int i)]
    | none => [])
  ++ (match c.rowsAffected with
    | some n => [("rows_affected", Json.ofNat n)]
    | none => [])
  ++ [("done", .bool c.done)]

end Chunk

inductive EventData where
  | rows (chunk : Chunk)
  /-- A single value, sent as the result. -/
  | result (value : Json)
  deriving DecidableEq, Repr, Inhabited

structure Event where
  requestId : Option String := none
  state : Progress
  message : Option String := none
  error : Option ErrorReport := none
  data : Option EventData := none
  deriving DecidableEq, Repr, Inhabited

namespace Event

/-- The error's message if there is an error, and else the event's own. -/
def shownMessage (e : Event) : String :=
  match e.error with
  | some p => p.message
  | none => e.message.getD ""

def hasRows (e : Event) : Bool :=
  match e.data with
  | some (.rows _) => true
  | _ => false

def stateJson (e : Event) : Json :=
  Json.obj ([("type", .string e.state.name), ("msg", .string e.shownMessage)]
    ++ match e.error with
      | some p => p.detailFields
      | none => [])

def dataFields (e : Event) : List (String × Json) :=
  match e.data with
  | some (.rows chunk) => chunk.toFields
  | some (.result value) => [("result", value)]
  | none => []

def toJson (e : Event) : Json :=
  Json.obj ([("request_id", Json.ofOption .string e.requestId), ("request_state", e.stateJson)]
    ++ e.dataFields)

end Event
end DatabaseSession
