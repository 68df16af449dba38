import DatabaseSession.Rehearsal.World
import DatabaseSession.Text.Utf8

namespace DatabaseSession.Rehearsal.Engine

def initial (e : Engine) : EngineState := { openings := e.openings, statements := e.statements }

def errorText : Int → String
  | 0 => "not an error"
  | 5 => "database is locked"
  | 7 => "out of memory"
  | 14 => "unable to open database file"
  | 19 => "constraint failed"
  | _ => "unknown error"

abbrev Act := StateM World

def note (e : Entry) : Act Unit := modify fun w => w.note e

def read : Act EngineState := do return (← get).engine

def update (f : EngineState → EngineState) : Act Unit :=
  modify fun w => { w with engine := f w.engine }

def newId : Act Nat := do
  let n := (← read).ids + 1
  update fun s => { s with ids := n }
  return n

def replace {α : Type} (id : Nat) (a : α) (entries : List (Nat × α)) : List (Nat × α) :=
  entries.map fun e => if e.1 = id then (id, a) else e

def handle (id : Nat) : Act Handle := do return ((← read).handles.lookup id).getD {}

def changeHandle (id : Nat) (f : Handle → Handle) : Act Unit := do
  let h ← handle id
  update fun s => { s with handles := replace id (f h) s.handles }

def program (id : Nat) : Act Program := do
  return ((← read).programs.lookup id).getD { handle := 0, script := {} }

def changeProgram (id : Nat) (f : Program → Program) : Act Unit := do
  let p ← program id
  update fun s => { s with programs := replace id (f p) s.programs }

def mark (f : Fault) (h : Handle) : Handle :=
  { h with
    errorCode := f.exactCode.getD f.code
    errorMessage := f.message.getD (Text.utf8 (errorText f.code)) }

def clear (h : Handle) : Handle :=
  { h with errorCode := 0, errorMessage := Text.utf8 (errorText 0) }

def openFile (path : String) (flags : Nat) : Act (Int × Option Nat) := do
  let s ← read
  let opening := (s.openings.head?).getD {}
  update fun s => { s with openings := s.openings.drop 1 }
  if opening.withoutHandle then
    note (.handleOpened none path flags)
    return (opening.fault.code, none)
  let id ← newId
  let h := mark opening.fault { changes := Sqlite.int32 opening.changes, rowid := opening.rowid }
  update fun s => { s with handles := (id, h) :: s.handles }
  note (.handleOpened (some id) path flags)
  return (opening.fault.code, some id)

def close (id : Nat) : Act Unit := do
  note (.handleClosed id)
  update fun s => { s with handles := s.handles.filter fun e => e.1 ≠ id }

/-- The first script for a text that can still be used, and the scripts after its use. -/
def takeCompiled (sql : String) : List Compiled → Compiled × List Compiled
  | [] => ({}, [])
  | s :: rest =>
    if s.sql = sql ∧ s.times ≠ some 0 then
      (s, { s with times := s.times.map (· - 1) } :: rest)
    else
      let (found, rest) := takeCompiled sql rest
      (found, s :: rest)

def isBlankByte (b : UInt8) : Bool := b == 32 || b == 9 || b == 13 || b == 10

def trimBytes (bs : List UInt8) : List UInt8 :=
  ((bs.dropWhile isBlankByte).reverse.dropWhile isBlankByte).reverse

/-- The length of the text up to its first semicolon, that included. -/
def segmentLength (text : List UInt8) : Nat :=
  min ((text.takeWhile (· ≠ 59)).length + 1) text.length

def prepare (db : Nat) (text : List UInt8) : Act Sqlite.Prepared := do
  let taken := segmentLength text
  let body := trimBytes (text.takeWhile (· ≠ 59))
  note (.prepared db body)
  if body.isEmpty ∨ body.take 2 = [45, 45] then
    changeHandle db clear
    return ⟨0, none, some taken⟩
  let (script, statements) := takeCompiled (Text.decodeLossy body) (← read).statements
  update fun s => { s with statements }
  let taken := match script.tail with
    | none => some taken
    | some k => k.map (min · text.length)
  if script.preparing.code ≠ 0 then
    changeHandle db (mark script.preparing)
    return ⟨script.preparing.code, none, taken⟩
  changeHandle db clear
  if script.withoutStatement then return ⟨0, none, taken⟩
  let id ← newId
  update fun s =>
    { s with programs := (id, { handle := db, script, steps := script.steps }) :: s.programs }
  return ⟨0, some id, taken⟩

def finalize (id : Nat) : Act Unit := do
  note .finalized
  update fun s => { s with programs := s.programs.filter fun e => e.1 ≠ id }

def bind (id index : Nat) (binding : Sqlite.Binding) : Act Int := do
  note (.bound index binding)
  let p ← program id
  let fault := (p.script.bindings[index - 1]?).getD {}
  changeHandle p.handle (if fault.code = 0 then clear else mark fault)
  return fault.code

def interruptFault : Fault :=
  { code := 9, message := some (Text.utf8 "interrupted") }

/-- The counters move whatever a step comes to. -/
def count (s : Step) (h : Handle) : Handle :=
  { h with
    changes := (s.changes.map Sqlite.int32).getD h.changes
    total := Sqlite.int32 (h.total + (s.total.getD (s.changes.getD 0)))
    rowid := s.rowid.getD h.rowid }

def finishStep (id db : Nat) (s : Step) : Act Int := do
  changeHandle db (count s)
  match s.row with
  | some row =>
    changeProgram id fun p => { p with row }
    changeHandle db clear
    return Sqlite.rowCode
  | none =>
    let code := s.fault.code
    changeHandle db
      (if code = Sqlite.doneCode ∨ code = Sqlite.rowCode then clear else mark s.fault)
    return code

def step (id : Nat) : Play World Int := do
  Play.lift (note .stepped)
  let p ← Play.lift (program id)
  let s := (p.steps.head?).getD {}
  Play.lift (changeProgram id fun p => { p with steps := p.steps.drop 1, row := [] })
  if s.waits then
    Play.modify World.comeToGate
    Play.lift (changeHandle p.handle fun h => { h with interrupted := false })
    let moves := (← Play.get).stage.script.length
    await (fun w =>
      if ((w.engine.handles.lookup p.handle).map Handle.interrupted).getD true then some ((), w)
      else none) () (moves + 2)
    Play.lift (changeHandle p.handle (mark interruptFault))
    return interruptFault.code
  else Play.lift (finishStep id p.handle s)

def column (id index : Nat) : Act (Option (List UInt8) × Option (List UInt8)) := do
  return ((← program id).script.columns[index]?).getD (none, none)

def interrupt (id : Nat) : Act Unit := do
  note (.handleInterrupted id)
  changeHandle id fun h => { h with interrupted := true }

def library : Sqlite.Library World where
  version := "3.99.0"
  errorString := errorText
  openFile := openFile
  close := close
  errorMessage := fun db => do return (← handle db).errorMessage
  errorCode := fun db => do return (← handle db).errorCode
  busyTimeout := fun db ms => note (.busyTimeout db ms)
  prepare := prepare
  finalize := finalize
  parameterCount := fun id => do return Sqlite.size64 (← program id).script.parameters
  bind := bind
  step := step
  columnCount := fun id => do return (← program id).script.columns.length
  columnName := fun id i => do return (← column id i).1
  declaredType := fun id i => do return (← column id i).2
  cell := fun id i => do return ((← program id).row[i]?).getD .other
  changes := fun db => do return (← handle db).changes
  totalChanges := fun db => do return (← handle db).total
  lastRowid := fun db => do return (← handle db).rowid
  interrupt := interrupt

end DatabaseSession.Rehearsal.Engine
