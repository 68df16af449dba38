import DatabaseSession.Json.Printer
import DatabaseSession.Sqlite.Library
import DatabaseSession.Text.Blank

namespace DatabaseSession.Sqlite

/-- Where a statement text has been read to. A text may hold several statements; each is a
result set of its own. -/
structure Cursor where
  db : Nat
  text : List UInt8
  params : List Value
  /-- The first byte that is not prepared yet. -/
  offset : Nat := 0
  statement : Option Nat := none
  sql : String := ""
  columns : List Column := []
  /-- The first row, stepped early for the types of its cells. -/
  peeked : Option Row := none
  exhausted : Bool := true
  stats : StatementStats := {}
  changesBefore : Int := 0
  rowidBefore : Int := 0
  deriving Repr, Inhabited

/-- A text that ends at its first zero byte, decoded. -/
def terminatedText (bytes : List UInt8) : String := Text.decodeLossy (bytes.takeWhile (· ≠ 0))

/-- The fault behind a code, whose low byte tells its kind. -/
def faultOfCode (code : Int) : QueryFault :=
  match (code % 256).toNat with
  | 1 => .syntaxError
  | 19 => .constraint
  | 5 | 6 => .deadlock
  | 3 | 23 | 8 => .permission
  | 12 | 14 => .notFound
  | 18 => .dataTruncation
  | 9 => .interrupted
  | 25 | 21 => .bind
  | _ => .database

def Binding.ofValue : Value → Binding
  | .null => .null
  | .bool b => .int (if b then 1 else 0)
  | .int i => .int i
  | .double x => .double x
  | .text s => .text s
  | .json j => .text j.compact
  | .bytes bs => .blob bs

def Cell.toValue : Cell → Value
  | .int i => .int i
  | .double x => .double x
  | .text (some bytes) => .text (Text.decodeLossy bytes)
  | .text none => .null
  | .blob bytes => .bytes (bytes.getD [])
  | .other => .null

/-- Does the text begin with a word that inserts rows? -/
def insertsRows (sql : String) : Bool :=
  let word := (Text.firstWord sql).toList.map Char.toUpper
  word == "INSERT".toList || word == "REPLACE".toList

def tooFewBindings (sql : String) (needed supplied : Nat) : Error :=
  .query {
    fault := .bind
    origin := .storage
    code := some rangeCode
    sql := some sql
    message := "Incorrect number of bindings supplied. The current statement uses "
      ++ toString needed ++ ", and there are " ++ toString supplied ++ " supplied." }

namespace Cursor

variable {lam : Type}

/-- A cursor's moves: its own state beside the library's. -/
abbrev Move (lam : Type) := Play (Cursor × lam)

def Move.read : Move lam Cursor := do return (← Play.get).1

def Move.update (f : Cursor → Cursor) : Move lam Unit := Play.modify fun cl => (f cl.1, cl.2)

def call {α : Type} (f : StateM lam α) : Move lam α := Play.beside (Play.lift f)

theorem read_bind {α : Type} (f : Cursor → Move lam α) (w : Cursor × lam) :
    (Move.read >>= f) w = f w.1 w :=
  rfl

theorem update_bind {α : Type} (f : Cursor → Cursor) (g : Unit → Move lam α) (w : Cursor × lam) :
    (Move.update f >>= g) w = g () (f w.1, w.2) :=
  rfl

theorem call_bind {α β : Type} (f : StateM lam β) (g : β → Move lam α) (w : Cursor × lam) :
    (call f >>= g) w = g (f w.2).1 (w.1, (f w.2).2) :=
  rfl

/-- The error behind a code that is not zero; the connection may know a more exact code. -/
def explain (lib : Library lam) (db : Nat) (code : Int) (sql : String) :
    StateM lam QueryIssue := do
  let exact ← lib.errorCode db
  let code := if exact = okCode then code else exact
  let message := terminatedText (← lib.errorMessage db)
  return {
    fault := faultOfCode code, origin := .storage, code := some code, sql := some sql, message }

def endStatement (lib : Library lam) : Move lam Unit := do
  if let some statement := (← Move.read).statement then
    call (lib.finalize statement)
  Move.update fun c =>
    { c with statement := none, peeked := none, exhausted := true, columns := [] }

/-- Prepares the next statement of the text and tells whether there is one. A piece without a
statement is skipped; after an error nothing more of the text is prepared. Every round takes at
least one of the `left` bytes. -/
def nextStatement (lib : Library lam) : Nat → Move lam Bool
  | 0 => return false
  | left + 1 => do
    let c ← Move.read
    if c.text.length ≤ c.offset then return false
    let rest := c.text.drop c.offset
    let prepared ← call (lib.prepare c.db rest)
    let taken := prepared.taken.getD rest.length
    let sql := Text.trim (Text.decodeLossy (rest.take taken))
    if prepared.code ≠ okCode then
      Move.update fun c => { c with offset := c.text.length }
      Play.fail (.query (← call (explain lib c.db prepared.code sql)))
    Move.update fun c => { c with offset := min (c.offset + max taken 1) c.text.length }
    match prepared.statement with
    | none => nextStatement lib left
    | some statement =>
      Move.update fun c => { c with statement := some statement, sql }
      return true

def bindFrom (lib : Library lam) (statement : Nat) : Nat → List Value → Move lam Unit
  | _, [] => pure ()
  | index, value :: rest => do
    let code ← call (lib.bind statement index (.ofValue value))
    if code ≠ okCode then
      let c ← Move.read
      let e ← call (explain lib c.db code c.sql)
      Play.fail (.query { e with
        fault := .bind
        message := "Failed to bind parameter " ++ toString index ++ ": " ++ e.message })
    bindFrom lib statement (index + 1) rest

def readColumns (lib : Library lam) (statement : Nat) (count : Nat) : StateM lam (List Column) :=
  (List.range count).mapM fun i => do
    let name ← lib.columnName statement i
    let declared ← lib.declaredType statement i
    return ⟨(name.map terminatedText).getD "", (declared.map terminatedText).getD "", none⟩

/-- A column without a declared type takes the storage class of its cell. -/
def inferTypes : List Column → List Value → List Column
  | c :: cs, v :: vs =>
    (if c.typeName = "" then { c with typeName := v.storageClass } else c) :: inferTypes cs vs
  | cs, _ => cs

/-- What a finished statement reports. The library keeps its counters across statements that
change nothing, so they count only when the total has moved. -/
def statsOf (returnsRows : Bool) (totalBefore total changes rowidBefore rowid : Int)
    (sql : String) : StatementStats :=
  let modified := decide (total ≠ totalBefore)
  let inserted := modified && (decide (rowid ≠ rowidBefore) || insertsRows sql)
  { rowsAffected := if modified && !returnsRows then changes.toNat else 0
    lastInsertId := if inserted && decide (rowid ≠ 0) then some rowid else none }

def countChanges (lib : Library lam) (statement : Nat) : Move lam Unit := do
  let c ← Move.read
  let count ← call (lib.columnCount statement)
  let total ← call (lib.totalChanges c.db)
  let changes ← call (lib.changes c.db)
  let rowid ← call (lib.lastRowid c.db)
  Move.update fun c => { c with
    stats := statsOf (decide (0 < count)) c.changesBefore total changes c.rowidBefore rowid c.sql }

/-- The cells of the next row, if there is one. -/
def stepRow (lib : Library lam) : Move lam (Option (List Value)) := do
  let c ← Move.read
  match c.exhausted, c.statement with
  | true, _ | _, none => return none
  | false, some statement =>
    let code ← Play.beside (lib.step statement)
    if code = rowCode then
      let count ← call (lib.columnCount statement)
      let cells ← call ((List.range count).mapM fun i => lib.cell statement i)
      return some (cells.map Cell.toValue)
    else
      Move.update fun c => { c with exhausted := true }
      if code = doneCode then
        countChanges lib statement
        return none
      else Play.fail (.query (← call (explain lib c.db code c.sql)))

/-- Binds the parameters of the statement just prepared and takes its first step. -/
def start (lib : Library lam) (statement : Nat) : Move lam Unit := do
  let c ← Move.read
  let needed ← call (lib.parameterCount statement)
  if c.params.length < needed then Play.fail (tooFewBindings c.sql needed c.params.length)
  bindFrom lib statement 1 (c.params.take needed)
  let count ← call (lib.columnCount statement)
  let declared ← call (readColumns lib statement count)
  let changesBefore ← call (lib.totalChanges c.db)
  let rowidBefore ← call (lib.lastRowid c.db)
  Move.update fun c => { c with changesBefore, rowidBefore, stats := {}, exhausted := false }
  let first ← stepRow lib
  let columns := inferTypes declared (first.getD [])
  Move.update fun c => { c with columns, peeked := first.map (Row.mk columns) }

/-- Goes on to the next statement of the text; tells whether there is one. -/
def advance (lib : Library lam) : Move lam Bool := do
  endStatement lib
  let c ← Move.read
  if ← nextStatement lib (c.text.length - c.offset) then
    match (← Move.read).statement with
    | some statement =>
      start lib statement
      return true
    | none => return false
  else return false

/-- The next row of the current statement: the one stepped early, or a new one. -/
def fetch (lib : Library lam) : Move lam (Option Row) := do
  match (← Move.read).peeked with
  | some row =>
    Move.update fun c => { c with peeked := none }
    return some row
  | none =>
    let cells ← stepRow lib
    return cells.map (Row.mk (← Move.read).columns)

end Cursor
end DatabaseSession.Sqlite
