import DatabaseSession.Rehearsal.Script

namespace DatabaseSession.Rehearsal

inductive Reply where
  | nothing
  | text (s : String)
  | answer (a : Answer)
  | panicked (p : Panic)
  /-- The handle to ask by is gone. -/
  | dropped
  | stuck
  | described
  /-- What the threads that reconnected came to; some may have panicked. -/
  | joined (rs : List (Except Panic (Except Error Unit)))

inductive HookMoment where
  | connect
  | connected (backend : String)
  | failed (e : Error)
  | close

inductive Entry where
  | connect (o : Options)
  | disconnect
  | release
  | execute (sql : String) (params : List Value)
  | ping
  | setSchema (schema : String)
  | interrupt
  | hook (name : String) (moment : HookMoment)
  | connection (notice : ConnectionNotice)
  | task (phase : Milestone) (id : Option String)
  | event (e : Event)
  | deed (name : String) (reply : Reply)
  | action (name : String) (reply : Reply)
  | taskCancelled (id : Option String)
  | taskFailed (id : Option String) (e : Error)
  | constructed (label : Json)
  | initialized (name : String)
  | handleOpened (handle : Option Nat) (path : String) (flags : Nat)
  | handleClosed (handle : Nat)
  | busyTimeout (handle : Option Nat) (ms : Nat)
  | handleInterrupted (handle : Nat)
  | prepared (handle : Nat) (sql : List UInt8)
  | bound (index : Nat) (binding : Sqlite.Binding)
  | stepped
  | finalized

inductive Move where
  | call (c : Call)
  | reconnectAside (options : Option Options)
  | join
  /-- Lets one statement through a gate. -/
  | permit
  | awaitPings (n : Nat)
  /-- Waits for the session's end, but not longer than this. -/
  | awaitEnd (span : Duration)
  | describe
  | clone
  | dropClone
  | drop

/-- What the caller waits for before the next move, while the heartbeat goes on. -/
inductive Wait where
  | nothing
  /-- A further statement is at a gate. -/
  | gate
  | sessionEnd
  deriving DecidableEq, Inhabited

structure Cue where
  move : Move
  wait : Wait := .nothing

structure BackendState where
  connected : Bool := false
  connects : Nat := 0
  pings : Nat := 0
  statements : List Statement := []
  /-- What is left of the current result set, and those after it. -/
  sets : List ResultSet := []
  fetched : Nat := 0
  schema : Option String := none
  interrupted : Bool := false
  deriving Inhabited

structure Handle where
  errorCode : Int := 0
  errorMessage : List UInt8 := []
  changes : Int := 0
  total : Int := 0
  rowid : Int := 0
  interrupted : Bool := false
  deriving Inhabited

structure Program where
  handle : Nat
  script : Compiled
  steps : List Step := []
  row : List Sqlite.Cell := []
  deriving Inhabited

structure EngineState where
  openings : List Opening := []
  statements : List Compiled := []
  ids : Nat := 0
  handles : List (Nat × Handle) := []
  programs : List (Nat × Program) := []
  deriving Inhabited

/-- The log of a step: its entries, and what was found in the inboxes at its end. -/
structure Page where
  entries : List Entry := []
  mail : List Event := []
  deriving Inhabited

namespace Page

def toLog (p : Page) : List Entry := p.entries ++ p.mail.map .event

def merge (ps : List Page) : Page := ⟨ps.flatMap Page.entries, ps.flatMap Page.mail⟩

end Page

/-- Where the rehearsal stands. The caller's moves are taken one by one; while a statement waits
at a gate it is the caller who goes on. -/
structure Stage where
  script : List Cue := []
  begun : Nat := 0
  /-- The steps that are over, the latest first. -/
  pages : List Page := []
  replies : List (Nat × Reply) := []
  permits : Nat := 0
  gatesOpen : Bool := false
  gated : Nat := 0
  /-- What the caller waits for after the latest move, and how many statements had come to a gate
  before it. -/
  wait : Wait := .nothing
  gatedBefore : Nat := 0
  mainHandle : Bool := true
  clones : Nat := 0
  /-- The threads that reconnect and that nobody has waited for, in the order of their start. -/
  aside : List Reply := []
  deriving Inhabited

structure World where
  /-- The log of the current step, the latest entry first. -/
  log : List Entry := []
  /-- What has come into inboxes in this step, the latest first. -/
  arrived : List Event := []
  backend : BackendState := {}
  engine : EngineState := {}
  setups : List (List Setup) := []
  heard : List (Nat × Nat) := []
  stage : Stage := {}
  deriving Inhabited

namespace World

def note (w : World) (e : Entry) : World := { w with log := e :: w.log }

def page (w : World) : Page := ⟨w.log.reverse, w.arrived.reverse⟩

def clearLog (w : World) : World := { w with log := [], arrived := [] }

def closeStep (w : World) : World :=
  { w.clearLog with stage := { w.stage with pages := w.page :: w.stage.pages } }

def reply (w : World) (n : Nat) (r : Reply) : World :=
  { w with stage := { w.stage with replies := (n, r) :: w.stage.replies } }

def takeMove (w : World) : Option (Nat × Move × World) :=
  match w.stage.script with
  | [] => none
  | cue :: rest => some (w.stage.begun, cue.move,
      { w with stage := { w.stage with
        script := rest, begun := w.stage.begun + 1, wait := cue.wait
        gatedBefore := w.stage.gated } })

def onStage (f : Stage → Stage) (w : World) : World := { w with stage := f w.stage }

def comeToGate (w : World) : World := w.onStage fun s => { s with gated := s.gated + 1 }

end World

/-- What a caller's move needs of whoever carries it out. -/
structure Desk (m : Type → Type) where
  call : Call → m Reply
  change : {α : Type} → StateM World α → m α
  reconnectAside : Option Options → m Reply
  awaitPings : Nat → m Reply
  awaitEnd : Duration → m Reply

/-- What the threads that reconnect come to; none if one of them never comes back. -/
def Desk.collect {m : Type → Type} [Monad m] (d : Desk m) :
    List Reply → m (Option (List (Except Panic (Except Error Unit))))
  | [] => return some []
  | r :: rest => do
    let r ← match r with
      | .answer (.ticket n) => d.call (.awaitReconnect n)
      | r => pure r
    match r, ← d.collect rest with
    | .answer (.result x), some xs => return some (.ok x :: xs)
    | .panicked p, some xs => return some (.error p :: xs)
    | _, _ => return none

/-- Waits for the threads that reconnect. Nobody waits for them again. -/
def Desk.join {m : Type → Type} [Monad m] (d : Desk m) : m Reply := do
  let aside ← d.change fun w => (w.stage.aside, w.onStage fun s => { s with aside := [] })
  match ← d.collect aside with
  | some rs => return .joined rs
  | none => return .stuck

def sendAside (r : Reply) : StateM World Unit :=
  modify (World.onStage fun s => { s with aside := s.aside ++ [r] })

/-- Carries out a move. Without the main handle little can be done. -/
def Desk.carryOut {m : Type → Type} [Monad m] (d : Desk m) (move : Move) : m Reply := do
  let held ← d.change do return (← get).stage.mainHandle
  match move with
  | .permit =>
    d.change (modify (World.onStage fun s => { s with permits := s.permits + 1 }))
    return .nothing
  | .call (.failures tracker take) => d.call (.failures tracker take)
  | .drop =>
    if !held then return .nothing
    d.change (modify (World.onStage fun s => { s with mainHandle := false }))
    d.call .dropHandle
  | .dropClone =>
    if (← d.change do return (← get).stage.clones) = 0 then return .nothing
    d.change (modify (World.onStage fun s => { s with clones := s.clones - 1 }))
    d.call .dropHandle
  | move =>
    if !held then return .dropped
    match move with
    | .reconnectAside options => d.reconnectAside options
    | .join => d.join
    | .awaitPings n => d.awaitPings n
    | .awaitEnd span => d.awaitEnd span
    | .describe => return .described
    | .clone =>
      d.change (modify (World.onStage fun s => { s with clones := s.clones + 1 }))
      d.call .cloneHandle
    | .call c => d.call c
    | .permit | .drop | .dropClone => return .nothing

/-- The caller's desk while the worker is blocked. -/
def besideWorker : Desk (Play World) where
  call := fun c => do return .answer (← Play.ask .caller c)
  change := Play.lift
  reconnectAside := fun options => do
    let a ← Play.ask .caller (.queueReconnect options)
    Play.lift (sendAside (.answer a))
    return .answer (.flag true)
  awaitPings := fun n => do return .answer (.flag (decide (n ≤ (← Play.get).backend.pings)))
  awaitEnd := fun _ => do return .answer (← Play.ask .caller .waitTerminated)

/-- Waits until `ready`, the caller going on meanwhile; when the caller has nothing left to do
the gates open. -/
def await {α : Type} (ready : World → Option (α × World)) (opened : α) : Nat → Play World α
  | 0 => return opened
  | moves + 1 => do
    let w ← Play.get
    if let some (a, w) := ready w then
      Play.set w
      return a
    if w.stage.gatesOpen then return opened
    match w.closeStep.takeMove with
    | none =>
      Play.set (w.closeStep.onStage fun s => { s with gatesOpen := true })
      return opened
    | some (n, move, w) =>
      Play.set w
      let r ← besideWorker.carryOut move
      Play.modify fun w => w.reply n r
      await ready opened moves

/-- Waits at a gate; tells whether it was passed and not interrupted. -/
def passGate : Play World Bool := do
  Play.modify fun w =>
    { w.comeToGate with backend := { w.backend with interrupted := false } }
  let moves := (← Play.get).stage.script.length
  await (fun w =>
    if 0 < w.stage.permits then
      some (true, w.onStage fun s => { s with permits := s.permits - 1 })
    else if w.backend.interrupted then some (false, w)
    else none) true (moves + 2)

def Fate.play {ω : Type} : Fate → Play ω Unit
  | .fine => pure ()
  | .error e => Play.fail e
  | .panic p => Play.panic p

end DatabaseSession.Rehearsal
