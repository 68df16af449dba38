import DatabaseSession.Json.Printer
import DatabaseSession.Rehearsal.World
import DatabaseSession.Session.Status
import DatabaseSession.Sqlite.Layout

/-! What a rehearsal puts on record, as documents. -/

namespace DatabaseSession.Rehearsal.Transcript

def hexWord (n : UInt64) : String :=
  let ds := Nat.toDigits 16 n.toNat
  String.ofList (List.replicate (16 - ds.length) '0' ++ ds)

mutual

def plain : Json → Json
  | .float x => .object [("$f64", .string (hexWord x.bits))]
  | .array items => .array (plainItems items)
  | .object fields => .object (plainFields fields)
  | j => j

def plainItems : List Json → List Json
  | [] => []
  | j :: rest => plain j :: plainItems rest

def plainFields : List (String × Json) → List (String × Json)
  | [] => []
  | (n, j) :: rest => (n, plain j) :: plainFields rest

end

def strings (l : List String) : Json := .array (l.map .string)

def optText : Option String → Json := Json.ofOption .string

def optInt : Option Int → Json := Json.ofOption .int

def optBool : Option Bool → Json := Json.ofOption .bool

def optDouble : Option Binary64 → Json := Json.ofOption .float

def bytesJson (bs : List UInt8) : Json := .array (bs.map fun b => .int b.toNat)

def connectionFaultName : ConnectionFault → String
  | .connect => "Connect"
  | .authentication => "Authentication"
  | .disconnected => "Disconnected"
  | .notConnected => "NotConnected"
  | .refused => "Refused"

def queryFaultName : QueryFault → String
  | .syntaxError => "Syntax"
  | .constraint => "Constraint"
  | .notFound => "NotFound"
  | .permission => "Permission"
  | .dataTruncation => "DataTruncation"
  | .deadlock => "Deadlock"
  | .timeout => "Timeout"
  | .interrupted => "Interrupted"
  | .killed => "Killed"
  | .bind => "Bind"
  | .database => "Database"

def sessionFaultName : SessionFault → String
  | .alreadyOpen => "AlreadyOpen"
  | .notOpen => "NotOpen"
  | .closed => "Closed"
  | .spawn => "Spawn"
  | .workerGone => "WorkerGone"

def kindName : Error → String
  | .connection e => "Connection." ++ connectionFaultName e.fault
  | .query e => "Query." ++ queryFaultName e.fault
  | .setting _ => "Config"
  | .unregistered _ => "Backend.NotRegistered"
  | .session e => "Session." ++ sessionFaultName e.fault
  | .io _ => "Io"
  | .timeout => "Timeout"
  | .custom _ => "Custom"

def present {α : Type} (name : String) (f : α → Json) : Option α → List (String × Json)
  | some a => [(name, f a)]
  | none => []

def errorJson (e : Error) : Json :=
  Json.obj ([("error", .string (kindName e)), ("message", .string e.message),
      ("display", .string e.display), ("origin", .string e.origin.name)]
    ++ present "code" .int e.code
    ++ present "sqlstate" .string e.sqlstate
    ++ present "sql" .string e.sql)

def okJson (j : Json) : Json := .object [("ok", j)]

def res {α : Type} (f : α → Json) : Except Error α → Json
  | .ok a => okJson (f a)
  | .error e => errorJson e

def unitRes : Except Error Unit → Json := res fun _ => .null

def errorReport : Option ErrorReport → Json := Json.ofOption ErrorReport.toJson

def statsFields (s : LastRunStats) : List (String × Json) :=
  [("last_error", errorReport s.lastError), ("timed", .bool s.lastExecutionTime.isSome),
    ("last_insert_id", optInt s.lastInsertId), ("rows_affected", Json.ofNat s.rowsAffected)]

def lastRunStats (s : LastRunStats) : Json := Json.obj (statsFields s)

def runStats (s : RunStats) : Json :=
  Json.obj (("cancelled", .bool s.cancelled) :: statsFields (LastRunStats.ofRun s))

def timeless (e : Event) : Json :=
  match e.toJson with
  | .object fields =>
    if e.hasRows ∧ Fields.contains fields "execution_time" then
      .object (Fields.insert "execution_time" (.string "T") fields)
    else .object fields
  | j => j

def outcomeJson (o : Outcome) : Json :=
  Json.obj [("state", .string o.state.name), ("events", .array (o.events.map timeless)),
    ("stats", runStats o.stats)]

def failureJson (f : Failure) : Json :=
  Json.obj [("request_id", optText f.requestId), ("state", .string f.state.name),
    ("error", errorReport f.error)]

def failuresJson (fs : List Failure) : Json := .array (fs.map failureJson)

def settingsJson (c : Settings) : Json :=
  let ms (d : Duration) : Json := Json.ofNat (d.seconds * 1000 + d.nanos / 1000000)
  Json.obj [("threaded", .bool c.threaded), ("status_timeout_ms", ms c.statusTimeout),
    ("statement_retries", Json.ofNat c.statementRetries),
    ("reconnect_attempts", Json.ofNat c.reconnectAttempts),
    ("reconnect_delay_ms", ms c.reconnectDelay)]

def layoutJson (l : Sqlite.Layout) : Json :=
  Json.obj [("path", .string l.path), ("database_name", .string l.name),
    ("attachments", .array (l.attachments.map fun d => strings [d.name, d.path])),
    ("flags", Json.obj [("read_only", .bool l.flags.readOnly), ("create", .bool l.flags.create),
      ("uri", .bool l.flags.uri)]),
    ("busy_timeout_ms", Json.ofNat l.busyTimeout)]

def statusJson (s : LastRunStats) : Json :=
  let summary := s.summary
  let message := if s.lastError.isNone ∧ s.lastExecutionTime.isSome then
      "Query finished in T seconds."
    else summary.message
  Json.obj [("state", .string summary.state.name), ("msg", .string message)]

def statusPart (name : String) (s : LastRunStats) : Json :=
  match name with
  | "last_error" => errorReport s.lastError
  | "last_insert_id" => optInt s.lastInsertId
  | "rows_affected" => Json.ofNat s.rowsAffected
  | "last_execution_time" => .bool s.lastExecutionTime.isSome
  | "last_status" => statusJson s
  | _ => lastRunStats s

def answerJson (name : String) : Answer → Json
  | .unit => .null
  | .flag b => .bool b
  | .count n => Json.ofNat n
  | .result r => unitRes r
  | .outcome r => res (Json.ofOption outcomeJson) r
  | .status r => res (statusPart name) r
  | .info j => j
  | .schema s => optText s
  | .failures fs => failuresJson fs
  | .ticket _ => .null

def panicJson (p : Panic) : Json :=
  Json.obj [("error", .string "Panic"), ("message", .string p.message)]

def replyJson (name : String) (described : Json) : Reply → Json
  | .nothing => .null
  | .text s => .string s
  | .answer a => answerJson name a
  | .panicked p => panicJson p
  | .dropped => .string "dropped"
  | .stuck => .object [("stuck", .bool true)]
  | .described => described
  | .joined rs => .array (rs.map fun r =>
      match r with
      | .ok r => unitRes r
      | .error p => panicJson p)

def attemptText : Attempt → String
  | .opening => "Open"
  | .reconnect .user => "Reconnect(User)"
  | .reconnect .automatic => "Reconnect(Automatic)"

def bindingJson : Sqlite.Binding → Json
  | .null => strings ["null"]
  | .int i => .array [.string "int64", .int i]
  | .double x => .array [.string "double", .float x]
  | .text s => strings ["text", s]
  | .blob bs => .array [.string "blob", bytesJson bs]

def entryItems : Entry → List Json
  | .connect o => [.string "connect", o.toJson]
  | .disconnect => [.string "disconnect"]
  | .release => [.string "release"]
  | .execute sql params => [.string "execute", .string sql, .array (params.map Value.toTagged)]
  | .ping => [.string "ping"]
  | .setSchema schema => [.string "set_schema", .string schema]
  | .interrupt => [.string "interrupt"]
  | .hook name moment => [.string "hook", .string name] ++ match moment with
    | .connect => [.string "connect"]
    | .connected b => [.string "connected", .string b]
    | .failed e => [.string "failed", .string e.message]
    | .close => [.string "close"]
  | .connection notice => .string "conn" :: match notice with
    | .connecting a => [.string "connecting", .string (attemptText a)]
    | .connected a => [.string "connected", .string (attemptText a)]
    | .failed a e => [.string "failed", .string (attemptText a), .string e.message]
  | .task phase id =>
    [.string "task", .string (match phase with
      | .started => "started"
      | .finished => "finished"), optText id]
  | .event e => [.string "event", timeless e]
  | .deed name reply => [.string "sink_action", .string name, replyJson name .null reply]
  | .action name reply => [.string "task_action", .string name, replyJson name .null reply]
  | .taskCancelled id => [.string "task_cancel", optText id]
  | .taskFailed id e => [.string "task_fail", optText id, .string e.message]
  | .constructed label => [.string "construct", label]
  | .initialized name => [.string "initializer", .string name]
  | .handleOpened id path flags =>
    [.string "open", Json.ofOption Json.ofNat id, .string path, Json.ofNat flags]
  | .handleClosed id => [.string "close", Json.ofNat id]
  | .busyTimeout id ms => [.string "busy_timeout", Json.ofNat (id.getD 0), Json.ofNat ms]
  | .handleInterrupted id => [.string "interrupt", Json.ofNat id]
  | .prepared id sql => [.string "prepare", Json.ofNat id, .string (Text.decodeLossy sql)]
  | .bound index b => [.string "bind", Json.ofNat index, bindingJson b]
  | .stepped => [.string "step"]
  | .finalized => [.string "finalize"]

def logJson (log : List Entry) : Json := .array (log.map fun e => .array (entryItems e))

def stepJson (r : Json) (log : List Entry) : Json := .object [("log", logJson log), ("r", r)]

end DatabaseSession.Rehearsal.Transcript
