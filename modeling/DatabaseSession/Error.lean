import DatabaseSession.Json

namespace DatabaseSession

/-- The layer an error comes from. -/
inductive Origin where
  | database
  | driver
  | storage
  | engine
  deriving DecidableEq, Repr, Inhabited

namespace Origin

def name : Origin → String
  | .database => "DATABASE"
  | .driver => "DRIVER"
  | .storage => "STORAGE"
  | .engine => "ENGINE"

def ofName? : String → Option Origin
  | "DATABASE" => some .database
  | "DRIVER" => some .driver
  | "STORAGE" => some .storage
  | "ENGINE" => some .engine
  | _ => none

/-- Reads a bare name, or an object whose one field is a name without content. -/
def ofJson? : Json → Option Origin
  | .string s => ofName? s
  | .object [(n, .null)] => ofName? n
  | _ => none

end Origin

inductive ConnectionFault where
  | connect
  | authentication
  | disconnected
  | notConnected
  | refused
  deriving DecidableEq, Repr

inductive QueryFault where
  | syntaxError
  | constraint
  | notFound
  | permission
  | dataTruncation
  | deadlock
  | timeout
  | interrupted
  | killed
  | bind
  | database
  deriving DecidableEq, Repr

inductive SessionFault where
  | alreadyOpen
  | notOpen
  | closed
  | spawn
  | workerGone
  deriving DecidableEq, Repr

structure ConnectionIssue where
  fault : ConnectionFault
  origin : Origin
  code : Option Int := none
  message : String
  cause : Option String := none
  deriving DecidableEq, Repr

structure QueryIssue where
  fault : QueryFault
  origin : Origin
  code : Option Int := none
  sql : Option String := none
  sqlstate : Option String := none
  message : String
  cause : Option String := none
  deriving DecidableEq, Repr

structure SettingIssue where
  message : String
  option : Option String := none
  deriving DecidableEq, Repr

structure SessionIssue where
  fault : SessionFault
  sessionId : String
  message : String
  deriving DecidableEq, Repr

inductive Error where
  | connection (e : ConnectionIssue)
  | query (e : QueryIssue)
  | setting (e : SettingIssue)
  /-- No backend is registered under the name. -/
  | unregistered (name : String)
  | session (e : SessionIssue)
  | io (message : String)
  /-- A bounded wait expired. -/
  | timeout
  | custom (message : String)
  deriving DecidableEq, Repr

namespace QueryIssue

def describe (e : QueryIssue) : String :=
  match e.sqlstate with
  | some s => e.message ++ " (SQLSTATE " ++ s ++ ")"
  | none => e.message

end QueryIssue

namespace SettingIssue

def describe (e : SettingIssue) : String :=
  match e.option with
  | some o => e.message ++ " (option '" ++ o ++ "')"
  | none => e.message

end SettingIssue

namespace SessionIssue

def describe (e : SessionIssue) : String := "[" ++ e.sessionId ++ "] " ++ e.message

end SessionIssue

namespace Error

/-- Raised when a task sees the kill switch. -/
def killed (sql : Option String) : Error :=
  .query { fault := .killed, origin := .engine, sql, message := "Query killed" }

def unconnected (origin : Origin) : Error :=
  .connection { fault := .notConnected, origin, message := "Not connected." }

def badOption (option message : String) : Error := .setting ⟨message, some option⟩

def closed (sessionId : String) : Error :=
  .session ⟨.closed, sessionId, "The session has been closed."⟩

/-- A loss of the connection that connecting again may mend. -/
def losesConnection : Error → Bool
  | .connection e => e.fault == .disconnected || e.fault == .notConnected
  | .io _ => true
  | _ => false

def isKilled : Error → Bool
  | .query e => e.fault == .killed
  | _ => false

def origin : Error → Origin
  | .connection e => e.origin
  | .query e => e.origin
  | .io _ => .driver
  | _ => .engine

def code : Error → Option Int
  | .connection e => e.code
  | .query e => e.code
  | _ => none

def sqlstate : Error → Option String
  | .query e => e.sqlstate
  | _ => none

def sql : Error → Option String
  | .query e => e.sql
  | _ => none

def unregisteredMessage (name : String) : String :=
  "There is no registered session with the name: " ++ name

/-- The bare message, without the category that `display` puts in front. -/
def message : Error → String
  | .connection e => e.message
  | .query e => e.message
  | .setting e => e.message
  | .unregistered name => unregisteredMessage name
  | .session e => e.message
  | .io m => m
  | .timeout => "Operation timed out"
  | .custom m => m

def display : Error → String
  | .connection e => "Connection error: " ++ e.message
  | .query e =>
    match e.sqlstate with
    | some s => "Query error (SQLSTATE " ++ s ++ "): " ++ e.message
    | none => "Query error: " ++ e.message
  | .setting e => "Configuration error: " ++ e.describe
  | .unregistered name => "Backend error: " ++ unregisteredMessage name
  | .session e => "Session error: " ++ e.describe
  | .io m => "I/O error: " ++ m
  | .timeout => "Operation timed out"
  | .custom m => m

def describe : Error → String
  | .connection e => e.message
  | .query e => e.describe
  | .setting e => e.describe
  | .unregistered name => unregisteredMessage name
  | .session e => e.describe
  | .io m => "I/O error: " ++ m
  | .timeout => "Operation timed out"
  | .custom m => m

/-- The text of the error that caused this one; an input or output error is its own cause. -/
def cause : Error → Option String
  | .connection e => e.cause
  | .query e => e.cause
  | .io m => some m
  | _ => none

end Error

/-- What an event tells about an error. -/
structure ErrorReport where
  message : String
  source : Origin
  code : Option Int
  sqlstate : Option String
  deriving DecidableEq, Repr

namespace ErrorReport

def ofError (e : Error) : ErrorReport := ⟨e.message, e.origin, e.code, e.sqlstate⟩

def detailFields (p : ErrorReport) : List (String × Json) :=
  [("source", .string p.source.name)]
    ++ (match p.code with | some c => [("code", .int c)] | none => [])
    ++ match p.sqlstate with | some s => [("sqlstate", .string s)] | none => []

def toJson (p : ErrorReport) : Json := Json.obj (("msg", .string p.message) :: p.detailFields)

end ErrorReport
end DatabaseSession
