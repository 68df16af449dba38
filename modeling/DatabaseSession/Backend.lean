import DatabaseSession.Turn

namespace DatabaseSession

structure StatementStats where
  rowsAffected : Nat := 0
  lastInsertId : Option Int := none
  deriving DecidableEq, Repr, Inhabited

/-- A connection to a database engine over a state `ω`. A statement is executed, then the rows of
its current result set are fetched until there are no more, then the next result set is asked
for. -/
structure Backend (ω : Type) where
  name : String
  connect : Options → Play ω Unit
  disconnect : Play ω Unit
  /-- Teardown for good. -/
  release : Play ω Unit
  isConnected : ω → Bool
  execute : String → List Value → Play ω Unit
  columns : Play ω (List Column)
  fetchRow : Play ω (Option Row)
  nextResult : Play ω Bool
  stats : Play ω StatementStats
  /-- A cheap sign of life. -/
  ping : Play ω Unit
  info : Play ω Json
  /-- The schema that the connection options select. -/
  defaultSchema : Play ω (Option String)
  /-- The schema that unqualified names resolve against. -/
  currentSchema : Play ω (Option String)
  setCurrentSchema : String → Play ω Unit
  /-- The handle by which another thread stops the running statement. -/
  interrupter : Play ω (Option Nat)
  /-- The end of the connection's memory, with what it still holds. -/
  dispose : Play ω Unit

namespace Backend

variable {ω : Type}

/-- Fetches rows until there are no more; a supply that outlasts the patience never ends. -/
def readOutRows (fetchRow : Play ω (Option Row)) : Nat → Play ω Unit
  | 0 => Play.hang
  | patience + 1 => do
    match ← fetchRow with
    | some _ => readOutRows fetchRow patience
    | none => pure ()

/-- Fetches the rows of every further result set. -/
def readOutSets (fetchRow : Play ω (Option Row)) (nextResult : Play ω Bool) (rows : Nat) :
    Nat → Play ω Unit
  | 0 => Play.hang
  | patience + 1 => do
    if ← nextResult then
      readOutRows fetchRow rows
      readOutSets fetchRow nextResult rows patience

def readOut (fetchRow : Play ω (Option Row)) (nextResult : Play ω Bool) (patience : Nat) :
    Play ω Unit := do
  readOutRows fetchRow patience
  readOutSets fetchRow nextResult patience patience

/-- A sign of life by means of a statement. -/
def pingBySelect (execute : String → List Value → Play ω Unit) (fetchRow : Play ω (Option Row))
    (nextResult : Play ω Bool) (patience : Nat) : Play ω Unit := do
  execute "SELECT 1" []
  readOut fetchRow nextResult patience

def cannotSwitch (backend schema : String) : Error :=
  .custom ("The " ++ backend ++ " backend cannot switch to schema '" ++ schema ++ "'.")

/-- The part of a backend that has to be there leaves the rest to these defaults. -/
def withDefaults (c : Backend ω) (patience : Nat) : Backend ω :=
  { c with
    release := c.disconnect
    ping := pingBySelect c.execute c.fetchRow c.nextResult patience
    info := pure (.object [("backend", .string c.name)])
    defaultSchema := pure none
    currentSchema := pure none
    setCurrentSchema := fun schema => Play.fail (cannotSwitch c.name schema)
    interrupter := pure none }

/-- A backend whose state is the second of two parts. -/
def beside {κ : Type} (c : Backend ω) : Backend (κ × ω) where
  name := c.name
  connect := fun o => Play.beside (c.connect o)
  disconnect := Play.beside c.disconnect
  release := Play.beside c.release
  isConnected := fun kw => c.isConnected kw.2
  execute := fun sql params => Play.beside (c.execute sql params)
  columns := Play.beside c.columns
  fetchRow := Play.beside c.fetchRow
  nextResult := Play.beside c.nextResult
  stats := Play.beside c.stats
  ping := Play.beside c.ping
  info := Play.beside c.info
  defaultSchema := Play.beside c.defaultSchema
  currentSchema := Play.beside c.currentSchema
  setCurrentSchema := fun schema => Play.beside (c.setCurrentSchema schema)
  interrupter := Play.beside c.interrupter
  dispose := Play.beside c.dispose

end Backend
end DatabaseSession
