import DatabaseSession.Value

namespace DatabaseSession

/-- A result column: its name, its declared or inferred type and, where one is reported, its
display length. -/
structure Column where
  name : String
  typeName : String
  length : Option Nat := none
  deriving DecidableEq, Repr, Inhabited

namespace Column

def toJson (c : Column) : Json :=
  Json.obj ([("name", .string c.name), ("type", .string c.typeName)]
    ++ match c.length with
      | some n => [("length", Json.ofNat n)]
      | none => [])

def lengthOfJson? : Json → Option (Option Nat)
  | .null => some none
  | j => j.asUInt64?.map some

/-- Reads an object, where the length may be missing, or a list of exactly the three parts. -/
def ofJson? : Json → Option Column
  | .object fields => do
    let name ← (← Fields.get? fields "name").asString?
    let typeName ← (← Fields.get? fields "type").asString?
    let length ← lengthOfJson? ((Fields.get? fields "length").getD .null)
    some ⟨name, typeName, length⟩
  | .array [.string name, .string typeName, length] => do
    some ⟨name, typeName, ← lengthOfJson? length⟩
  | _ => none

def indexOf? (columns : List Column) (name : String) : Option Nat :=
  (columns.zipIdx.filter fun c => c.1.name = name).getLast?.map (·.2)

end Column

structure Row where
  columns : List Column
  values : List Value
  deriving DecidableEq, Repr, Inhabited

namespace Row

def ofPairs (pairs : List (String × Value)) : Row :=
  ⟨pairs.map fun p => ⟨p.1, p.2.typeName, none⟩, pairs.map (·.2)⟩

def size (r : Row) : Nat := r.values.length

def isEmpty (r : Row) : Bool := r.values.isEmpty

def get? (r : Row) (i : Nat) : Option Value := r.values[i]?

def find? (r : Row) (name : String) : Option Value :=
  (Column.indexOf? r.columns name).bind r.get?

def toJson (r : Row) : Json := .array (r.values.map Value.toJson)

end Row
end DatabaseSession
