import DatabaseSession.Options
import DatabaseSession.Text.FileName
import DatabaseSession.Text.Literal

namespace DatabaseSession.Sqlite

structure OpenMode where
  readOnly : Bool := false
  /-- Make the file if it is not there; of no account when only reading. -/
  create : Bool := true
  uri : Bool := false
  deriving DecidableEq, Repr, Inhabited

namespace OpenMode

def reading : OpenMode := ⟨true, false, false⟩

/-- The library's word for the flags; the handle is never shared between threads. -/
def toWord (f : OpenMode) : Nat :=
  0x8000
    ||| (if f.readOnly then 1 else if f.create then 2 ||| 4 else 2)
    ||| (if f.uri then 0x40 else 0)

end OpenMode

structure Database where
  name : String
  path : String
  deriving DecidableEq, Repr

/-- The databases of one connection: the main one, and those attached to it in order. -/
structure Layout where
  path : String
  name : String
  attachments : List Database := []
  flags : OpenMode := {}
  busyTimeout : Nat := 5000
  deriving DecidableEq, Repr

namespace Layout

/-- A single file, named by its stem. -/
def file (path : String) : Layout := { path, name := Text.fileStem path }

def memory : Layout := { file ":memory:" with name := "main" }

def main (l : Layout) : Database := ⟨l.name, l.path⟩

def databases (l : Layout) : List Database := l.main :: l.attachments

def holds (l : Layout) (schema : String) : Bool :=
  l.databases.any fun d => d.name = schema

/-- The same databases with the named one as the main one. -/
def withMain (l : Layout) (schema : String) : Option Layout :=
  (l.databases.find? fun d => d.name = schema).map fun d =>
    { l with
      path := d.path
      name := schema
      attachments := l.databases.filter fun d => d.name ≠ schema }

/-- The name of the database that an entry describes: the given one, or else its file's stem. -/
def entryName (fields : Fields) : String :=
  match (Fields.get? fields "database_name").bind Json.asString? with
  | some name => if name = "" then stem else name
  | none => stem
where
  stem : String := (((Fields.get? fields "db_file").bind Json.asString?).map Text.fileStem).getD ""

def readEntry (fields : Fields) : Except Error Database :=
  match (Fields.get? fields "db_file").bind Json.asString? with
  | some path => if path = "" then missing else .ok ⟨entryName fields, path⟩
  | none => missing
where
  missing : Except Error Database := .error (.badOption "db_file"
    ("The 'db_file' option was not set for the '" ++ entryName fields ++ "' database."))

def readAttachment : Json → Except Error Database
  | .object fields => readEntry fields
  | _ => .error (.badOption "attach" "Each attached database must be an object.")

def readAttachments : Option Json → Except Error (List Database)
  | none => .ok []
  | some (.array entries) => entries.mapM readAttachment
  | some _ => .error (.badOption "attach" "The 'attach' option must be a list of databases.")

def ofOptions (o : Options) : Except Error Layout := do
  let entry ← readEntry o.entries
  let attachments ← readAttachments (o.get? "attach")
  return {
    path := entry.path
    name := entry.name
    attachments
    flags := if o.getBool? "read_only" = some true then .reading else {}
    busyTimeout := match o.getUInt64? "busy_timeout_ms" with
      | some ms => min ms 0xFFFFFFFF
      | none => 5000 }

def attachStatement (d : Database) : String :=
  "ATTACH " ++ Text.literal d.path ++ " AS " ++ Text.literal d.name

/-- What is run on a fresh connection, in order. -/
def setupStatements (l : Layout) : List String :=
  (if l.flags.readOnly then [] else ["PRAGMA journal_mode = WAL"])
    ++ l.attachments.map attachStatement

theorem withMain_isSome (l : Layout) (schema : String) :
    (l.withMain schema).isSome = l.holds schema := by
  rw [Bool.eq_iff_iff]
  simp [withMain, holds]

theorem databases_withMain {l r : Layout} {schema : String} (h : l.withMain schema = some r) :
    ∃ d ∈ l.databases, d.name = schema ∧
      r.databases = d :: l.databases.filter fun d => d.name ≠ schema := by
  obtain ⟨d, hd, rfl⟩ := Option.map_eq_some_iff.1 h
  have hname : d.name = schema := by simpa using List.find?_some hd
  refine ⟨d, List.mem_of_find?_eq_some hd, hname, ?_⟩
  simp [databases, main, ← hname]

end Layout
end DatabaseSession.Sqlite
