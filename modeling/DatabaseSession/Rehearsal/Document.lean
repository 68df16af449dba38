import DatabaseSession.Json.Parser
import DatabaseSession.Rehearsal.Script

/-! Documents that describe the parties of a rehearsal. What a document leaves out has its
default. -/

namespace DatabaseSession.Rehearsal.Document

def hexValue (s : String) : Option Nat :=
  s.toList.foldl (fun acc c => do
    let n ← acc
    let d ← Json.hexValue c
    some (n * 16 + d)) (some 0)

def word? : Json → Option Binary64
  | .object [("$f64", .string s)] =>
    if s.length = 16 then (hexValue s).map fun n => ⟨UInt64.ofNat n⟩ else none
  | _ => none

def number? (j : Json) : Option Binary64 := (word? j).orElse fun _ => j.asNumber?

def field? (j : Json) (name : String) : Option Json :=
  match j.get? name with
  | some .null => none
  | r => r

def field (j : Json) (name : String) : Json := (j.get? name).getD .null

def text? (j : Json) (name : String) : Option String := (field? j name).bind Json.asString?

def text (j : Json) (name : String) : String := (text? j name).getD ""

def flag (j : Json) (name : String) : Bool := ((field? j name).bind Json.asBool?).getD false

def flagOr (j : Json) (name : String) (default : Bool) : Bool :=
  ((field? j name).bind Json.asBool?).getD default

def count32? (j : Json) (name : String) : Option Nat :=
  ((field? j name).bind Json.asUInt64?).map (· % Nat.pow 2 32)

def int? (j : Json) (name : String) : Option Int := (field? j name).bind Json.asInt64?

def nat? (j : Json) (name : String) : Option Nat := (field? j name).bind Json.asUInt64?

def items (j : Json) (name : String) : List Json := ((field? j name).bind Json.asArray?).getD []

def listOf : Json → List Json
  | .array items => items
  | _ => []

def opName (j : Json) : String := text j "op"

def value? : Json → Option Value
  | .object [("Double", j)] => (number? j).map .double
  | j => Value.ofTagged? j

def value (j : Json) : Value := (value? j).getD .null

def byte (j : Json) : UInt8 := (Value.byteOfJson? j).getD 0

def bytes (j : Json) : List UInt8 := (listOf j).map byte

def column : Json → Column
  | .array (.string name :: .string type :: rest) =>
    ⟨name, type, rest.head?.bind Json.asUInt64?⟩
  | _ => default

def origin (j : Json) : Origin := ((text? j "origin").bind Origin.ofName?).getD .engine

def connectionFault : String → ConnectionFault
  | "Authentication" => .authentication
  | "Disconnected" => .disconnected
  | "NotConnected" => .notConnected
  | "Refused" => .refused
  | _ => .connect

def queryFault : String → QueryFault
  | "Syntax" => .syntaxError
  | "Constraint" => .constraint
  | "NotFound" => .notFound
  | "Permission" => .permission
  | "DataTruncation" => .dataTruncation
  | "Deadlock" => .deadlock
  | "Timeout" => .timeout
  | "Interrupted" => .interrupted
  | "Killed" => .killed
  | "Bind" => .bind
  | _ => .database

def sessionFault : String → SessionFault
  | "AlreadyOpen" => .alreadyOpen
  | "NotOpen" => .notOpen
  | "Spawn" => .spawn
  | "WorkerGone" => .workerGone
  | _ => .closed

def error (j : Json) : Error :=
  match text j "kind" with
  | "connection" => .connection {
      fault := connectionFault (text j "sub")
      origin := origin j
      code := int? j "code"
      message := text j "message"
      cause := text? j "source" }
  | "query" => .query {
      fault := queryFault (text j "sub")
      origin := origin j
      code := int? j "code"
      sql := text? j "sql"
      sqlstate := text? j "sqlstate"
      message := text j "message"
      cause := text? j "source" }
  | "config" => .setting ⟨text j "message", text? j "option"⟩
  | "config_helper" => .badOption (text j "option") (text j "message")
  | "backend" => .unregistered (text j "name")
  | "session" => .session ⟨sessionFault (text j "sub"), text j "session_id", text j "message"⟩
  | "io" => .io (text j "message")
  | "timeout" => .timeout
  | "killed" => .killed (text? j "sql")
  | "not_connected" => .unconnected (origin j)
  | _ => .custom (text j "message")

def panic : Json → Panic
  | .string s => ⟨some s⟩
  | .bool _ => ⟨some "static boom"⟩
  | _ => ⟨none⟩

def panic? (j : Json) (name : String) : Option Panic := (j.get? name).map panic

def fate : Json → Fate
  | .null => .fine
  | j =>
    match j.get? "panic" with
    | some p => .panic (panic p)
    | none => .error (error j)

def options (j : Json) : Options :=
  match j with
  | .object fields =>
    let o := match Options.ofFields (Fields.erase fields "ping_raw") with
      | .ok o => o
      | .error _ => {}
    match (Fields.get? fields "ping_raw").bind number? with
    | some x => { o with pingInterval := some x }
    | none => o
  | _ => {}

def millis (n : Nat) : Duration := .ofNanos (n * 1000000)

def settings (j : Json) : Settings :=
  { threaded := flag j "threaded"
    statusTimeout := millis ((nat? j "status_timeout_ms").getD 5000)
    statementRetries := (count32? j "statement_retries").getD ({} : Settings).statementRetries
    reconnectAttempts := (count32? j "reconnect_attempts").getD ({} : Settings).reconnectAttempts
    reconnectDelay := millis ((nat? j "reconnect_delay_ms").getD 0) }

end DatabaseSession.Rehearsal.Document
