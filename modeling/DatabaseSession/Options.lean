import DatabaseSession.Duration
import DatabaseSession.Error
import DatabaseSession.Binary64.Shortest
import DatabaseSession.Text.Quoted

namespace DatabaseSession

/-- Connection options: what the backend is given, and the two that steer the session. -/
structure Options where
  entries : Fields := []
  /-- Seconds between keep-alive probes; none, zero and less disable them. -/
  pingInterval : Option Binary64 := none
  autoReconnect : Bool := false
  deriving DecidableEq, Repr, Inhabited

namespace Options

def pingKey : String := "ping_interval"

def reconnectKey : String := "auto_reconnect"

def kindText : Json → String
  | .null => "null"
  | .bool b => "boolean `" ++ (if b then "true" else "false") ++ "`"
  | .int i => "integer `" ++ toString i ++ "`"
  | .float x => "floating point `" ++ x.compact ++ "`"
  | .string s => "string " ++ Text.quoted s
  | .array _ => "sequence"
  | .object _ => "map"

def invalidType (j : Json) (expected : String) : String :=
  "invalid type: " ++ kindText j ++ ", expected " ++ expected

def readAutoReconnect : Option Json → Except String Bool
  | none => .ok false
  | some (.bool b) => .ok b
  | some j => .error (invalidType j "a boolean")

def readPingInterval : Option Json → Except String (Option Binary64)
  | none => .ok none
  | some .null => .ok none
  | some j =>
    match j.asNumber? with
    | some x => .ok (some x)
    | none => .error (invalidType j "f64")

/-- Splits the two session options off the fields of a descriptor. -/
def ofFields (fields : Fields) : Except String Options := do
  let autoReconnect ← readAutoReconnect (Fields.get? fields reconnectKey)
  let pingInterval ← readPingInterval (Fields.get? fields pingKey)
  return {
    entries := Fields.erase (Fields.erase fields reconnectKey) pingKey
    pingInterval
    autoReconnect }

/-- The time between probes, if probing is enabled; an interval too long for a duration
disables it as well. -/
def probeInterval (o : Options) : Option Duration :=
  match o.pingInterval with
  | some x => if x.isPositive then Duration.ofSeconds? x else none
  | none => none

/-- Is the interval positive and too long for a duration? -/
def pingOutOfRange (x : Binary64) : Bool := x.isPositive && (Duration.ofSeconds? x).isNone

def ofJson : Json → Except Error Options
  | .object fields =>
    match ofFields fields with
    | .error message => .error (.badOption "connection_options" message)
    | .ok o =>
      match o.pingInterval with
      | some x =>
        if pingOutOfRange x then
          .error (.badOption pingKey
            ("The ping_interval of " ++ x.positional ++ " seconds is out of range."))
        else .ok o
      | none => .ok o
  | _ => .error (.badOption "connection_options" "No connection_options dict given.")

def set (o : Options) (key : String) (value : Json) : Options :=
  { o with entries := Fields.insert key value o.entries }

/-- The descriptor again; the session options are written last and so win over entries of
their name. -/
def toJson (o : Options) : Json :=
  let withPing := match o.pingInterval with
    | some x => Fields.insert pingKey (Json.ofBinary64 x) o.entries
    | none => o.entries
  .object (Fields.insert reconnectKey (.bool o.autoReconnect) withPing)

def get? (o : Options) (key : String) : Option Json := Fields.get? o.entries key

def getString? (o : Options) (key : String) : Option String := (o.get? key).bind Json.asString?

def getBool? (o : Options) (key : String) : Option Bool := (o.get? key).bind Json.asBool?

def getUInt64? (o : Options) (key : String) : Option Nat := (o.get? key).bind Json.asUInt64?

end Options
end DatabaseSession
