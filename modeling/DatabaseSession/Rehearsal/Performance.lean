import DatabaseSession.Rehearsal.Cast
import DatabaseSession.Session.Calls

namespace DatabaseSession.Rehearsal

def replying (m : Run Scene Reply) : Run Scene Reply := fun s =>
  match m s with
  | (.ok r, s) => (.ok r, s)
  | (.error (.panic p), s) => (.ok (.panicked p), s)
  | (.error _, s) => (.ok .stuck, s)

def onWorld {α : Type} (f : StateM World α) : Run Scene α := do
  let s ← get
  let (a, w) := f s.outside.2
  set { s with outside := (s.outside.1, w) }
  return a

/-- Lets the heartbeat go on until `enough`, with so many ticks at most. -/
def tickUntil (p : Parties Scene) (enough : Session Scene → Bool) : Nat → Run Scene Unit
  | 0 => pure ()
  | ticks + 1 => do
    let s ← get
    if s.mailbox.probing.isSome && !enough s then
      set (Service.tick s)
      Session.settle p
      tickUntil p enough ticks

def ticksWithin (s : Session Scene) (span : Duration) : Nat :=
  match s.mailbox.probing with
  | some interval => span.toNanos / max interval.toNanos 1
  | none => 0

/-- Has what the caller waits for come about? -/
def waitIsOver (s : Session Scene) : Bool :=
  let stage := s.outside.2.stage
  match stage.wait with
  | .nothing => true
  | .gate => decide (stage.gatedBefore < stage.gated) || s.terminated.isSet
  | .sessionEnd => s.terminated.isSet

def mostTicks : Nat := 10000

/-- The caller's desk while the worker has nothing to do. -/
def aloneAtDesk (p : Parties Scene) : Desk (Run Scene) where
  call := fun c => replying do return .answer (← Session.call p c)
  change := onWorld
  reconnectAside := fun options => do
    let r ← replying do return .answer (← Session.perform p (.queueReconnect options))
    onWorld (sendAside r)
    replying do
      Session.settle p
      return .answer (.flag true)
  awaitPings := fun n => replying do
    tickUntil p (fun s => decide (n ≤ s.outside.2.backend.pings)) n
    return .answer (.flag (decide (n ≤ (← get).outside.2.backend.pings)))
  awaitEnd := fun span => replying do
    tickUntil p (fun s => s.terminated.isSet) (ticksWithin (← get) span)
    return .answer (← Session.call p .waitTerminated)

def perform (p : Parties Scene) : Nat → Run Scene Unit
  | 0 => pure ()
  | moves + 1 => do
    match (← get).outside.2.takeMove with
    | none => pure ()
    | some (n, move, w) =>
      modify fun s => { s with outside := (s.outside.1, w) }
      let r ← (aloneAtDesk p).carryOut move
      let _ ← replying do
        tickUntil p waitIsOver mostTicks
        return .nothing
      onWorld (modify fun w => (w.reply n r).closeStep)
      perform p moves

def leave (p : Parties Scene) : Nat → Run Scene Unit
  | 0 => pure ()
  | handles + 1 => do
    let _ ← replying do return .answer (← Session.call p .dropHandle)
    leave p handles

/-- A rehearsed run: what each move came to and its step, and what came at the end. -/
structure Record where
  steps : List (Reply × Page)
  final : Page

namespace Record

def ofWorld (moves : Nat) (w : World) : Record :=
  let pages := w.stage.pages.reverse
  { steps := (List.range moves).map fun n =>
      ((w.stage.replies.lookup n).getD .stuck, (pages[n]?).getD {})
    final := Page.merge (pages.drop moves ++ [w.page]) }

def merged (r : Record) : Page := Page.merge (r.steps.map (·.2) ++ [r.final])

end Record

def rehearse (p : Parties Scene) (s : Session Scene) : Record :=
  let moves := s.outside.2.stage.script.length
  let go : Run Scene Unit := do
    perform p moves
    onWorld (modify (World.onStage fun s => { s with gatesOpen := true }))
    leave p (← get).handles
  Record.ofWorld moves (go s).2.outside.2

end DatabaseSession.Rehearsal
