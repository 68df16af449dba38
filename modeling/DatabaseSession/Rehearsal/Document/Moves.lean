import DatabaseSession.Rehearsal.Document.Parts

namespace DatabaseSession.Rehearsal.Document

/-- Listeners, assignments and inboxes, numbered as they come up. -/
structure Roles where
  listeners : List Listener := []
  assignments : List Assignment := []
  inboxes : Nat := 0

abbrev Casting := StateM Roles

def query (j : Json) : Query :=
  { statements := match text? j "sql" with
      | some sql => [sql]
      | none => (items j "batch").filterMap Json.asString?
    params := (items j "params").map value
    packetSize := Query.packetOfInt ((int? j "packet").getD 0)
    shape := match text j "shape" with
      | "OneField" => .oneField
      | "OneFieldList" => .oneFieldList
      | _ => .rows }

/-- Where events go, and whether a handle of the session is kept there. -/
structure Outlet where
  sink : Sink := .discard
  keepsHandle : Bool := false

/-- A listener that does something to the session has a handle of it. -/
def addListener (l : Listener) : Casting Outlet := do
  let r ← get
  set { r with listeners := r.listeners ++ [l] }
  return ⟨.callback r.listeners.length, !l.deeds.isEmpty⟩

def simpleCall (name : String) (j : Json) : Call :=
  match name with
  | "open" => .start
  | "close" => .close
  | "is_open" => .isOpen
  | "kill" => .kill
  | "is_killed" => .isKilled
  | "cancel" => .cancel (text j "id")
  | "pending" => .pending
  | "is_cancelled" => .isCancelled (text j "id")
  | "info" => .info
  | "default_schema" => .defaultSchema
  | "reconnect" => .reconnect none
  | "reconnect_with" => .reconnect (some (options (field j "options")))
  | "begin" => .execute .beginTransaction
  | "commit" => .execute .commit
  | "rollback" => .execute .rollback
  | "tracker" => .failures (text j "name") (flag j "take")
  | _ => .status

def taskOver (o : Outlet) (work : Work) (j : Json) : Task :=
  { work
    courier := { requestId := text? j "id", sink := o.sink, tracker := text? j "tracker" }
    keepsHandle := o.keepsHandle }

/-- What a callback does, given how the queries it submits are read. -/
def deed (task : Json → Casting Task) (j : Json) : Casting (Nat × Deed) := do
  let place := (nat? j "at").getD 0
  match text j "do" with
  | "panic" => return (place, .panic (panic (field j "with")))
  | "execute" => return (place, .call "execute" (.execute (← task (field j "request"))))
  | name => return (place, .call name (simpleCall name j))

/-- A threaded session has somebody listen unless told otherwise. -/
def outletWithin (threaded : Bool) : Nat → Json → Casting Outlet
  | 0, _ => return {}
  | depth + 1, j => do
    match text? j "kind" with
    | some "callback" =>
      let deeds ← (items j "on").mapM (deed fun r => do
        return taskOver (← outletWithin threaded depth (field r "sink")) (.query (query r)) r)
      addListener ⟨deeds⟩
    | some "channel" =>
      let r ← get
      set { r with inboxes := r.inboxes + 1 }
      return { sink := .channel (r.inboxes + 1) }
    | some "dropped" => return { sink := .channel 0 }
    | some _ => return {}
    | none => if threaded then addListener {} else return {}

def outlet (threaded : Bool) (j : Json) : Casting Outlet := outletWithin threaded (j.depth + 1) j

def queryTask (threaded : Bool) (j : Json) : Casting Task := do
  return taskOver (← outlet threaded (field j "sink")) (.query (query j)) j

def schemaTask (threaded : Bool) (action : SchemaRequest) (j : Json) : Casting Task := do
  return taskOver (← outlet threaded (field j "sink")) (.schema action) j

def schemaCall (threaded : Bool) (action : SchemaRequest) (j : Json) : Casting Call := do
  let t ← schemaTask threaded action j
  return .submit { t with courier := { t.courier with tracker := none } }

def action : Json → Action
  | .string "session_id" => .sessionId
  | .string "is_killed" => .isKilled
  | .string "auto_reconnect" => .autoReconnect
  | .string "statement_retries" => .statementRetries
  | .string "reconnect" => .reconnect
  | .string "is_connected" => .isConnected
  | .string "disconnect" => .disconnect
  | .string "gate" => .gate
  | j =>
    match text j "do" with
    | "execute" => .execute (text j "sql")
    | _ => .panic (panic (field j "with"))

def assignment (j : Json) : Assignment :=
  let stats := field j "stats"
  { id := text? j "id"
    actions := (items j "actions").map action
    stats := {
      lastError := (field? stats "error").map fun e => ErrorReport.ofError (error e)
      lastInsertId := int? stats "last_insert_id"
      rowsAffected := (nat? stats "rows_affected").getD 0 }
    cancelPanic := panic? j "cancel_panic"
    failPanic := panic? j "fail_panic"
    statsPanic := panic? j "stats_panic" }

def move (threaded : Bool) (j : Json) : Casting Move := do
  match opName j with
  | "execute" => return .call (.execute (← queryTask threaded j))
  | "query_task" => return .call (.assign (← queryTask threaded j))
  | "get_schema" => return .call (← schemaCall threaded .current j)
  | "set_schema" => return .call (← schemaCall threaded (.setCurrent (text j "schema")) j)
  | "schema_task" =>
    let action := match text? j "schema" with
      | some schema => .setCurrent schema
      | none => .current
    return .call (.assign (← schemaTask threaded action j))
  | "task" =>
    let r ← get
    set { r with assignments := r.assignments ++ [assignment j] }
    return .call (.assign {
      work := .custom r.assignments.length
      courier := { requestId := text? j "id" } })
  | "reconnect_bg" => return .reconnectAside ((field? j "options").map options)
  | "join_bg" => return .join
  | "gate" => return .permit
  | "wait_terminated" => return .awaitEnd (millis ((nat? j "ms").getD 5000))
  | "await_pings" => return .awaitPings ((nat? j "n").getD 0)
  | "describe" => return .describe
  | "clone" => return .clone
  | "drop_clone" => return .dropClone
  | "drop" => return .drop
  | name => return .call (simpleCall name j)

def cue (threaded : Bool) (j : Json) : Casting Cue := do
  let wait := match text j "wait" with
    | "gate" => .gate
    | "end" => .sessionEnd
    | _ => .nothing
  return ⟨← move threaded j, wait⟩

end DatabaseSession.Rehearsal.Document
