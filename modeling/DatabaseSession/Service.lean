import DatabaseSession.Task.Run

namespace DatabaseSession.Service

variable {ω : Type}

def reply (ticket : Nat) (r : Option (Except Error Unit)) : Run ω Unit :=
  modify fun s =>
    { s with mailbox := { s.mailbox with replies := (ticket, r) :: s.mailbox.replies } }

def dequeue : Run ω (Option Request) := do
  let s ← get
  match s.mailbox.queue with
  | [] => return none
  | request :: rest =>
    set { s with mailbox := { s.mailbox with queue := rest } }
    return some request

/-- A task goes, and with it the handle it may keep. -/
def dropTask (t : Task) (s : Session ω) : Session ω :=
  if t.keepsHandle then s.giveUpHandle else s

/-- A task that is still queued when the session ends is cancelled; its panic is of no
consequence. -/
def discardTask (p : Parties ω) (t : Task) : Run ω Unit := do
  modify fun s => { s with registry := (s.registry.beginOptional t.requestId).2, active := t }
  Run.shielded (Task.cancel p)
  modify (dropTask t)

/-- Empties the queue without running anything. -/
def emptyQueue (p : Parties ω) : Nat → Run ω Unit
  | 0 => Run.hang
  | patience + 1 => do
    match ← dequeue with
    | none => pure ()
    | some (.task t) =>
      discardTask p t
      emptyQueue p patience
    | some (.reconnect _ ticket) =>
      reply ticket (some (.error (← get).alreadyClosed))
      emptyQueue p patience
    | some .probe | some .close => emptyQueue p patience

/-- Stops the heartbeat, empties the queue, releases the backend and signals the end. -/
def windUp (p : Parties ω) : Run ω Unit := do
  modify fun s => { s with mailbox := { s.mailbox with probing := none } }
  emptyQueue p p.patience
  Link.release p
  modify fun s =>
    { s with terminated := s.terminated.set, mailbox := { s.mailbox with receiving := false } }

/-- The end of the worker's thread: whatever happens, the link goes with it. -/
def exit (p : Parties ω) (m : Run ω Unit) : Run ω Unit := do
  let _ ← Run.guarded (Run.ensuring m (Link.drop p))
  modify fun s => { s with mailbox := { s.mailbox with receiving := false } }

/-- A reconnect asked for by a caller. If it panics, nobody replies. -/
def handleReconnect (p : Parties ω) (options : Option Options) (ticket : Nat) : Run ω Unit := do
  let r ← Run.onPanic (do
      modify (Session.adopted options)
      Run.attempt (Link.renew p))
    (reply ticket none)
  reply ticket (some r)

/-- From now on the heartbeat may queue another keep-alive. -/
def clearProbe (s : Session ω) : Session ω :=
  { s with mailbox := { s.mailbox with probePending := false } }

def handleProbe (p : Parties ω) : Run ω Unit := do
  modify clearProbe
  Link.checkAlive p

/-- Handles a request; tells whether the worker goes on. -/
def handle (p : Parties ω) : Request → Run ω Bool
  | .close => return false
  | .reconnect options ticket => do
    handleReconnect p options ticket
    return true
  | .probe => do
    handleProbe p
    return true
  | .task t => do
    Run.ensuring (Task.perform p t) (modify (dropTask t))
    return true

/-- Takes the next request, if there is one, and handles it. A panic outside of a task is caught. -/
def takeNext (p : Parties ω) : Run ω (Option (Except Panic Bool)) := do
  match ← dequeue with
  | none => return none
  | some request => return some (← Run.guarded (handle p request))

/-- The worker's end: it was told to stop, or it panicked. Either way the rest of the queue is dealt
with. -/
def leave (p : Parties ω) : Option Panic → Run ω Unit
  | none => exit p (Run.onPanic (windUp p) (windUp p))
  | some q => exit p (Run.ensuring (throw (.panic q)) (windUp p))

/-- Takes and handles one request, and leaves if that is the last. Tells whether there was one. -/
def step (p : Parties ω) : Run ω Bool := do
  match ← takeNext p with
  | none => return false
  | some (.ok true) => return true
  | some (.ok false) =>
    leave p none
    return true
  | some (.error q) =>
    leave p (some q)
    return true

/-- Works until the queue is empty or the worker has stopped. -/
def settle (p : Parties ω) : Nat → Run ω Unit
  | 0 => Run.hang
  | patience + 1 => do
    if (← get).mailbox.receiving then
      if ← step p then settle p patience

def goneDuringStartup (s : Session ω) : Error :=
  s.fault .workerGone "The session thread exited during startup."

/-- The worker's start: it connects and reports, and on success it begins to probe and to take
requests. -/
def startup (p : Parties ω) : Run ω (Except Error Unit) := do
  match ← Run.attempt (Link.connect p) with
  | .error e =>
    Link.release p
    modify fun s => { s with terminated := s.terminated.set }
    return .error e
  | .ok () =>
    Link.publish p
    return .ok ()

/-- Starts the worker and waits for its first connect. -/
def launch (p : Parties ω) : Run ω (Except Error Unit) := do
  modify fun s => { s with mailbox := { s.mailbox with receiving := true } }
  match ← Run.guarded (startup p) with
  | .ok (.ok ()) =>
    modify fun s => { s with mailbox := { s.mailbox with
      probing := s.link.options.probeInterval } }
    return .ok ()
  | .ok (.error e) =>
    exit p (pure ())
    return .error e
  | .error q =>
    leave p (some q)
    return .error (goneDuringStartup (← get))

/-- The heartbeat's first move on a tick: it claims the one keep-alive that may be under way. -/
def claimProbe (s : Session ω) : Bool × Session ω :=
  (!s.mailbox.probePending, { s with mailbox := { s.mailbox with probePending := true } })

/-- Its second move: the claimed keep-alive is queued. A worker that is gone ends the probing. -/
def sendProbe (s : Session ω) : Session ω :=
  match s.sendRequest .probe with
  | (true, s) => s
  | (false, s) => { s with mailbox := { s.mailbox with probing := none } }

def tick (s : Session ω) : Session ω :=
  if s.mailbox.probing.isSome then
    match claimProbe s with
    | (true, s) => sendProbe s
    | (false, s) => s
  else s

end DatabaseSession.Service
