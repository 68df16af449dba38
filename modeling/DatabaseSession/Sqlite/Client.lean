import DatabaseSession.Sqlite.Cursor
import DatabaseSession.Sqlite.Layout

namespace DatabaseSession.Sqlite

/-- One connection to the embedded engine. The databases of its layout are schemas; the current
one is opened as the main database and the others are attached to it. -/
structure Client where
  /-- Tells this client's interrupters from those of earlier clients. -/
  key : Nat := 0
  db : Option Nat := none
  /-- The handle that interrupters aim at. -/
  target : Option Nat := none
  /-- The layout that is open, rooted at the current schema. -/
  layout : Option Layout := none
  /-- The layout of the connection options. -/
  base : Option Layout := none
  schema : Option String := none
  cursor : Option Cursor := none
  stats : StatementStats := {}
  deriving Repr, Inhabited

def noSuchSchema (schema : String) : Error :=
  .query {
    fault := .notFound
    origin := .storage
    message := "Unknown schema '" ++ schema ++ "'." }

def cannotOpen (code : Option Int) (message : String) : Error :=
  .connection { fault := .connect, origin := .storage, code, message }

def zeroByteInStatement (sql : String) : Error :=
  .query {
    fault := .syntaxError
    origin := .storage
    sql := some sql
    message := "SQL contains null byte" }

namespace Client

variable {lam : Type}

def backendName : String := "Sqlite"

/-- A client's moves: its own state beside the library's. -/
abbrev Move (lam : Type) := Play (Client × lam)

def Move.read : Move lam Client := do return (← Play.get).1

def Move.update (f : Client → Client) : Move lam Unit := Play.modify fun cl => (f cl.1, cl.2)

def call {α : Type} (f : StateM lam α) : Move lam α := Play.beside (Play.lift f)

theorem read_bind {α : Type} (f : Client → Move lam α) (w : Client × lam) :
    (Move.read >>= f) w = f w.1 w :=
  rfl

theorem update_bind {α : Type} (f : Client → Client) (g : Unit → Move lam α) (w : Client × lam) :
    (Move.update f >>= g) w = g () (f w.1, w.2) :=
  rfl

theorem call_bind {α β : Type} (f : StateM lam β) (g : β → Move lam α) (w : Client × lam) :
    (call f >>= g) w = g (f w.2).1 (w.1, (f w.2).2) :=
  rfl

/-- A move of the cursor, whose statistics are the client's. -/
def onCursor {α : Type} (m : Cursor.Move lam α) : Move lam α :=
  Play.focus (fun cl => (cl.1.cursor.getD default, cl.2))
    (fun k cl => ({ cl.1 with cursor := some k.1, stats := k.1.stats }, k.2)) m

def isConnected (c : Client) : Bool := c.db.isSome

def dropCursor (lib : Library lam) : Move lam Unit := do
  if let some statement := (← Move.read).cursor.bind Cursor.statement then
    call (lib.finalize statement)
  Move.update fun c => { c with cursor := none }

/-- Closes the handle, and the statement on it before. No interrupter may aim at it by then. -/
def letGo (lib : Library lam) : Move lam Unit := do
  dropCursor lib
  Move.update fun c => { c with target := none }
  if let some db := (← Move.read).db then
    call (lib.close db)
    Move.update fun c => { c with db := none }

/-- Begins a statement text on a fresh cursor. -/
def execute (lib : Library lam) (sql : String) (params : List Value) : Move lam Unit := do
  match (← Move.read).db with
  | none => Play.fail (.unconnected .storage)
  | some db =>
    dropCursor lib
    if sql.toList.contains '\x00' then Play.fail (zeroByteInStatement sql)
    Move.update fun c => { c with cursor := some { db, text := Text.utf8 sql, params } }
    let _ ← onCursor (Cursor.advance lib)

def fetchRow (lib : Library lam) : Move lam (Option Row) := do
  if (← Move.read).cursor.isNone then return none
  onCursor (Cursor.fetch lib)

def nextResult (lib : Library lam) : Move lam Bool := do
  if (← Move.read).cursor.isNone then return false
  onCursor (Cursor.advance lib)

def runOut (lib : Library lam) (patience : Nat) (sql : String) : Move lam Unit := do
  execute lib sql []
  Backend.readOut (fetchRow lib) (nextResult lib) patience
  dropCursor lib

/-- The message of a failed open; without a handle only the code tells anything. -/
def openFailure (lib : Library lam) (code : Int) (db : Option Nat) : StateM lam Error := do
  match db with
  | none => return cannotOpen (some code) ("Failed to open database: " ++ lib.errorString code)
  | some db =>
    let message := terminatedText (← lib.errorMessage db)
    lib.close db
    return cannotOpen (some code) ("Failed to open database: " ++ message)

/-- Takes over the handle of a file that was opened and sets the connection up on it. If that fails
nothing is open. -/
def setUpHandle (lib : Library lam) (patience : Nat) (l : Layout) (db : Option Nat) :
    Move lam Unit := do
  Move.update fun c => { c with db, target := db }
  match ← Play.attempt (l.setupStatements.forM (runOut lib patience)) with
  | .ok () => Move.update fun c => { c with layout := some l }
  | .error e =>
    letGo lib
    Play.fail e

/-- Opens a layout in place of what is open. If that fails nothing is open. -/
def openLayout (lib : Library lam) (patience : Nat) (l : Layout) : Move lam Unit := do
  letGo lib
  if l.path.toList.contains '\x00' then
    Play.fail (cannotOpen none "Invalid path: contains null byte")
  let (code, db) ← call (lib.openFile l.path l.flags.toWord)
  if code ≠ okCode then Play.fail (← call (openFailure lib code db))
  if 0 < l.busyTimeout then call (lib.busyTimeout db (min l.busyTimeout 0x7FFFFFFF))
  setUpHandle lib patience l db

/-- Opens a layout with the schema as its main database. -/
def openAt (lib : Library lam) (patience : Nat) (base : Layout) (schema : String) :
    Move lam Unit := do
  match base.withMain schema with
  | none => Play.fail (noSuchSchema schema)
  | some l =>
    openLayout lib patience l
    Move.update fun c => { c with schema := some schema, base := some base }

/-- A reconnect keeps the schema that was switched to, if there still is one of that name. -/
def connectSchema (c : Client) (base : Layout) : String :=
  match c.schema with
  | some schema => if base.holds schema then schema else base.name
  | none => base.name

def connect (lib : Library lam) (patience : Nat) (o : Options) : Move lam Unit := do
  match Layout.ofOptions o with
  | .error e => Play.fail e
  | .ok base => openAt lib patience base ((← Move.read).connectSchema base)

/-- Switches to another schema of the layout by opening it anew; a switch that fails goes back
to the schema before. -/
def setSchema (lib : Library lam) (patience : Nat) (schema : String) : Move lam Unit := do
  let c ← Move.read
  match c.base with
  | none => Play.fail (.unconnected .storage)
  | some base =>
    if !base.holds schema then Play.fail (noSuchSchema schema)
    if c.schema = some schema ∧ c.isConnected then return ()
    match ← Play.attempt (openAt lib patience base schema) with
    | .ok () => pure ()
    | .error e =>
      let _ ← Play.attempt (openAt lib patience base (c.schema.getD base.name))
      Play.fail e

def info (version : String) (c : Client) : Json :=
  Json.obj ([("backend", .string backendName), ("version", .string version)]
    ++ match c.base with
      | none => []
      | some base =>
        [("databases", Json.obj (base.databases.map fun d => (d.name, .string d.path))),
          ("default_schema", .string base.name)])

/-- Stops the running statement of the client with that key, if there is a handle to aim at. -/
def interrupt (lib : Library lam) (key : Nat) (cl : Client × lam) : Client × lam :=
  match cl.1.target with
  | some db => if cl.1.key = key then (cl.1, (lib.interrupt db cl.2).2) else cl
  | none => cl

def backend (lib : Library lam) (patience : Nat) : Backend (Client × lam) where
  name := backendName
  connect := connect lib patience
  disconnect := letGo lib
  release := letGo lib
  isConnected := fun cl => cl.1.isConnected
  execute := execute lib
  columns := do return (((← Move.read).cursor.map Cursor.columns).getD [])
  fetchRow := fetchRow lib
  nextResult := nextResult lib
  stats := do return (← Move.read).stats
  ping := Backend.pingBySelect (execute lib) (fetchRow lib) (nextResult lib) patience
  info := do return (← Move.read).info lib.version
  defaultSchema := do return (← Move.read).base.map Layout.name
  currentSchema := do return (← Move.read).schema
  setCurrentSchema := setSchema lib patience
  interrupter := do return some (← Move.read).key
  dispose := letGo lib

end Client
end DatabaseSession.Sqlite
