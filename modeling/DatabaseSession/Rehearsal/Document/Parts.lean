import DatabaseSession.Rehearsal.Cast
import DatabaseSession.Rehearsal.Document

namespace DatabaseSession.Rehearsal.Document

def resultSet (j : Json) : ResultSet :=
  let count := nat? j "count"
  { columns := match field? j "columns" with
      | some cs => (listOf cs).map column
      | none => if count.isSome then [⟨"n", "INTEGER", none⟩] else []
    rows := match count with
      | some n => (List.range n).map fun (i : Nat) => [.int (Int.ofNat i)]
      | none => (items j "rows").map fun r => (listOf r).map value
    stats := ⟨(nat? j "rows_affected").getD 0, int? j "last_insert_id"⟩
    fetchFault := (field? j "fetch_error").map fun f =>
      ⟨(nat? f "after").getD 0, error (field f "error"), flag f "drop"⟩
    nextFault := (field? j "next_error").map error }

def statement (j : Json) : Statement :=
  { sql := text j "sql"
    times := nat? j "times"
    gated := flag j "gate"
    drops := flag j "drop"
    fate := match j.get? "panic" with
      | some p => .panic (panic p)
      | none => match field? j "error" with
        | some e => .error (error e)
        | none => .fine
    sets := (items j "sets").map resultSet }

def backend (j : Json) : ScriptedBackend :=
  { name := (text? j "backend").getD "Mock"
    connects := (items j "connects").map fate
    pings := (items j "pings").map fate
    logsPings := flagOr j "log_pings" true
    statements := (items j "statements").map statement
    schema := text? j "schema"
    schemas := (items j "schemas").filterMap Json.asString?
    schemaFate := fate (field j "schema_error")
    interruptible := flagOr j "interrupter" true
    info := j.get? "info" }

def backendKind (j : Json) : BackendKind :=
  match text j "type" with
  | "minimal" => .minimal
  | "sqlite" => .sqlite
  | _ => .full

/-- A string, a list of bytes, or nothing. -/
def rawText? : Json → Option (List UInt8)
  | .string s => some (Text.utf8 s)
  | .array bs => some (bs.map byte)
  | _ => none

def fault (j : Json) (code : Int) : Fault :=
  { code := Sqlite.int32 ((int? j "rc").getD code)
    exactCode := (int? j "errcode").map Sqlite.int32
    message := (field? j "errmsg").bind rawText? }

def opening (j : Json) : Opening :=
  { fault := fault j 0
    withoutHandle := flag j "null"
    changes := (int? j "changes").getD 0
    rowid := (int? j "rowid").getD 0 }

def bareCell (type : Int) : Sqlite.Cell :=
  match Sqlite.int32 type with
  | 1 => .int 0
  | 2 => .double ⟨0⟩
  | 3 => .text none
  | 4 => .blob none
  | _ => .other

def cell (j : Json) : Sqlite.Cell :=
  match j with
  | .int i => .int i
  | .string s => .text (some (Text.utf8 s))
  | .float x => .double x
  | j =>
    match word? j, j.get? "utf8", j.get? "textnull", j.get? "blob" with
    | some x, _, _, _ => .double x
    | _, some bs, _, _ => .text (some (bytes bs))
    | _, _, some _, _ => .text none
    | _, _, _, some .null => .blob none
    | _, _, _, some bs => .blob (some (bytes bs))
    | _, _, _, _ => bareCell ((int? j "type").getD 5)

def step (j : Json) : Step :=
  { waits := flag j "wait"
    changes := int? j "changes"
    total := int? j "total"
    rowid := int? j "rowid"
    row := (field? j "row").map fun r => (listOf r).map cell
    fault := fault j Sqlite.doneCode }

def compiled (j : Json) : Compiled :=
  { sql := text j "sql"
    times := nat? j "times"
    tail := (j.get? "tail").map fun t => t.asUInt64?
    preparing := fault (field j "prepare") 0
    withoutStatement := flag j "null"
    parameters := (int? j "params").getD 0
    bindings := (items j "bind").map fun b => fault b 0
    columns := (items j "columns").map fun c =>
      match c with
      | .array (name :: rest) => (rawText? name, rest.head?.bind rawText?)
      | _ => (none, none)
    steps := (items j "steps").map step }

def engine (j : Json) : Engine :=
  { openings := (items j "opens").map opening
    statements := (items j "statements").map compiled }

def hook (j : Json) : ScriptedHook :=
  if flag j "plain" then {}
  else
    { name := some (text j "name")
      setups := (items j "on_connected").map fun a =>
        match text? a "execute" with
        | some sql => .execute sql
        | none => .fate (fate a) }

def observers (j : Json) (kind : String) : List (Option Panic) :=
  ((items j "observers").filter fun o => text o "kind" = kind).map fun o => panic? o "panic"

end DatabaseSession.Rehearsal.Document
