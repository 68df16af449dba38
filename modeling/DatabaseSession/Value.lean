import DatabaseSession.Json
import DatabaseSession.Text.Base64
import DatabaseSession.Text.Utf8

namespace DatabaseSession

inductive Value where
  | null
  | bool (b : Bool)
  | int (i : Int)
  | double (x : Binary64)
  | text (s : String)
  | bytes (bs : List UInt8)
  | json (j : Json)
  deriving DecidableEq, Repr, Inhabited

namespace Value

def isNull : Value → Bool
  | .null => true
  | _ => false

def typeName : Value → String
  | .null => "NULL"
  | .bool _ => "BOOLEAN"
  | .int _ => "INTEGER"
  | .double _ => "DOUBLE"
  | .text _ => "TEXT"
  | .bytes _ => "BLOB"
  | .json _ => "JSON"

/-- The storage class an embedded engine keeps the value in. -/
def storageClass : Value → String
  | .null => "NULL"
  | .bool _ | .int _ => "INTEGER"
  | .double _ => "REAL"
  | .text _ | .json _ => "TEXT"
  | .bytes _ => "BLOB"

def asBool? : Value → Option Bool
  | .bool b => some b
  | .int i => some (decide (i ≠ 0))
  | _ => none

def asInt? : Value → Option Int
  | .int i => some i
  | .bool b => some (if b then 1 else 0)
  | _ => none

def asDouble? : Value → Option Binary64
  | .double x => some x
  | .int i => some (Binary64.ofInt i)
  | _ => none

def asText? : Value → Option String
  | .text s => some s
  | _ => none

def asBytes? : Value → Option (List UInt8)
  | .bytes bs => some bs
  | .text s => some (Text.utf8 s)
  | _ => none

/-- Binary cells are shown from at most this many leading bytes. -/
def previewLength : Nat := 256

def toJson : Value → Json
  | .null => .null
  | .bool b => .bool b
  | .int i => .int i
  | .double x => Json.ofBinary64 x
  | .text s => .string s
  | .bytes bs => .string (String.ofList (Text.base64 (bs.take previewLength)))
  | .json j => j

/-- The value under the name of its kind, which keeps every kind apart. -/
def toTagged : Value → Json
  | .null => .string "Null"
  | .bool b => .object [("Bool", .bool b)]
  | .int i => .object [("Int", .int i)]
  | .double x => .object [("Double", .float x)]
  | .text s => .object [("Text", .string s)]
  | .bytes bs => .object [("Bytes", .array (bs.map fun b => .int b.toNat))]
  | .json j => .object [("Json", j)]

def byteOfJson? : Json → Option UInt8
  | .int i => if 0 ≤ i ∧ i < 256 then some (UInt8.ofNat i.toNat) else none
  | _ => none

/-- Reads a tagged value: the bare name of the null kind, or an object with exactly one known
kind. -/
def ofTagged? : Json → Option Value
  | .string "Null" => some .null
  | .object [("Null", .null)] => some .null
  | .object [("Bool", .bool b)] => some (.bool b)
  | .object [("Int", j)] => j.asInt64?.map .int
  | .object [("Double", j)] => j.asNumber?.map .double
  | .object [("Text", .string s)] => some (.text s)
  | .object [("Bytes", .array items)] => (items.mapM byteOfJson?).map .bytes
  | .object [("Json", j)] => some (.json j)
  | _ => none

end Value
end DatabaseSession
