import DatabaseSession.Rehearsal.ScriptedBackend
import DatabaseSession.Rehearsal.Engine
import DatabaseSession.Sqlite.Client

namespace DatabaseSession.Rehearsal

inductive BackendKind where
  | full
  /-- Leaves to the defaults what has a default. -/
  | minimal
  | sqlite
  deriving DecidableEq, Inhabited

structure Cast where
  kind : BackendKind := .full
  backend : ScriptedBackend := {}
  hooks : List ScriptedHook := []
  /-- The panics of the observers, if they panic. -/
  connectionObservers : List (Option Panic) := []
  taskObservers : List (Option Panic) := []
  listeners : List Listener := []
  assignments : List Assignment := []
  deriving Inhabited

/-- A client of the library and everything else. -/
abbrev Scene := Sqlite.Client × World

/-- Rows and sets of a script are never as many. -/
def patience : Nat := 1000000000

def note (e : Entry) : Play Scene Unit := Play.modify fun w => (w.1, w.2.note e)

namespace Cast

def staged (c : Cast) : Backend Scene :=
  match c.kind with
  | .full => (ScriptedBackend.backend c.backend).beside
  | .minimal => ((ScriptedBackend.backend c.backend).withDefaults patience).beside
  | .sqlite => Sqlite.Client.backend Engine.library patience

def interrupt (c : Cast) (key : Nat) (w : Scene) : Scene :=
  match c.kind with
  | .sqlite => Sqlite.Client.interrupt Engine.library key w
  | .full | .minimal => (w.1, ScriptedBackend.interrupt w.2)

def takeSetup (index : Nat) : Play Scene Setup := do
  let w ← Play.get
  let setups := (w.2.setups[index]?).getD []
  Play.set (w.1, { w.2 with setups := w.2.setups.set index (setups.drop 1) })
  return (setups.head?).getD (.fate .fine)

def hook (c : Cast) (index : Nat) (h : ScriptedHook) : Hook Scene :=
  match h.name with
  | none => ⟨pure (), pure (), fun _ => pure (), pure ()⟩
  | some name =>
    { onConnect := note (.hook name .connect)
      onConnected := do
        note (.hook name (.connected c.staged.name))
        match ← takeSetup index with
        | .fate f => f.play
        | .execute sql => c.staged.execute sql []
      onFailed := fun e => note (.hook name (.failed e))
      onClose := note (.hook name .close) }

def panicIf (p : Option Panic) : Play Scene Unit :=
  match p with
  | some p => Play.panic p
  | none => pure ()

def countEvent (key : Nat) : Play Scene Nat := do
  let w ← Play.get
  let n := (w.2.heard.lookup key).getD 0
  Play.set (w.1, { w.2 with heard := (key, n + 1) :: w.2.heard.filter fun e => e.1 ≠ key })
  return n

def doDeed : Deed → Play Scene Unit
  | .panic p => Play.panic p
  | .call name call => do
    let a ← Play.ask .worker call
    note (.deed name (.answer a))

def callback (c : Cast) (key : Nat) (e : Event) : Play Scene Unit := do
  note (.event e)
  let n ← countEvent key
  (((c.listeners[key]?).getD {}).deeds.filter fun d => d.1 = n).forM fun d => doDeed d.2

/-- An action of a custom task other than a reconnect, with what it says. -/
def act (c : Cast) (ctx : TaskView) : Action → Play Scene Reply
  | .sessionId => return .text ctx.sessionId
  | .isKilled => do return .answer (← Play.ask .worker .isKilled)
  | .autoReconnect => return .answer (.flag ctx.autoReconnect)
  | .statementRetries => return .answer (.count ctx.statementRetries)
  | .reconnect => return .nothing
  | .isConnected => do return .answer (.flag (c.staged.isConnected (← Play.get)))
  | .disconnect => do
    c.staged.disconnect
    return .nothing
  | .gate => do return .answer (.flag (← Play.beside passGate))
  | .execute sql => do return .answer (.result (← Play.attempt (c.staged.execute sql [])))
  | .panic p => Play.panic p

def errandAfter {α : Type} : Turn Scene α → (α → Scene → Errand Scene) → Errand Scene
  | .done (.ok a) w, next => next a w
  | .done (.error stop) w, _ => .done (.error stop) w
  | .ask thread call w answer, next =>
    .ask thread call w fun a w => errandAfter (answer a w) next

def errand (c : Cast) (ctx : TaskView) : List Action → Scene → Errand Scene
  | [], w => .done (.ok ()) w
  | .reconnect :: rest, w =>
    .reconnect w fun b w =>
      errand c ctx rest (w.1, w.2.note (.action Action.reconnect.name (.answer (.flag b))))
  | a :: rest, w =>
    errandAfter (act c ctx a w) fun r w =>
      errand c ctx rest (w.1, w.2.note (.action a.name r))

def custom (c : Cast) (key : Nat) : CustomTask Scene :=
  let a := (c.assignments[key]?).getD {}
  { execute := fun ctx => errand c ctx a.actions
    cancel := do
      note (.taskCancelled a.id)
      panicIf a.cancelPanic
    fail := fun e => do
      note (.taskFailed a.id e)
      panicIf a.failPanic
    stats := do
      panicIf a.statsPanic
      return a.stats }

/-- The first inbox has no receiver. -/
def post (inbox : Nat) (e : Event) (w : Scene) : Scene :=
  if inbox = 0 then w else (w.1, { w.2 with arrived := e :: w.2.arrived })

def parties (c : Cast) : Parties Scene where
  backend := c.staged
  hooks := c.hooks.mapIdx (hook c)
  connectionObservers := c.connectionObservers.map fun p notice => do
    note (.connection notice)
    panicIf p
  taskObservers := c.taskObservers.map fun p phase id => do
    note (.task phase id)
    panicIf p
  post := post
  callback := callback c
  custom := custom c
  interrupt := interrupt c
  clock := fun _ => 0
  patience := patience

def scene (c : Cast) (engine : Engine) (script : List Cue) : Scene :=
  ({}, {
    backend := ScriptedBackend.initial c.backend
    engine := Engine.initial engine
    setups := c.hooks.map ScriptedHook.setups
    stage := { script } })

end Cast
end DatabaseSession.Rehearsal
