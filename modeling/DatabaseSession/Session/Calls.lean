import DatabaseSession.Service

namespace DatabaseSession.Session

variable {ω : Type}

def holding {α : Type} (m : Run ω α) : Run ω α := do
  modify fun s => { s with locked := true }
  Run.ensuring m (modify fun s => { s with locked := false })

def startInCaller (p : Parties ω) : Run ω Unit := do
  match ← Run.attempt (Link.connect p) with
  | .error e =>
    Link.release p
    modify fun s => { s with terminated := s.terminated.set }
    Link.drop p
    Run.raise e
  | .ok () =>
    Link.publish p
    modify fun s => { s with life := .inCaller }

/-- Connects. A threaded session starts its worker and waits for the worker's first connect; a
session that fails to start is closed. -/
def start (p : Parties ω) : Run ω Unit := do
  let s ← get
  match s.life with
  | .closed => Run.raise s.alreadyClosed
  | .threaded | .inCaller => Run.raise (s.fault .alreadyOpen "The session is already open.")
  | .idle =>
    set { s with life := .closed }
    holding do
      if s.settings.threaded then
        match ← Service.launch p with
        | .ok () => modify fun s => { s with life := .threaded }
        | .error e => Run.raise e
      else Run.onPanic (startInCaller p) (Link.drop p)

/-- Releases the connection of a session without a worker. -/
def closeHere (p : Parties ω) : Run ω Unit :=
  Run.ensuring (do
    Link.release p
    modify fun s => { s with terminated := s.terminated.set }) (Link.drop p)

/-- Lets the worker go on until it has nothing left to do. -/
def settle (p : Parties ω) : Run ω Unit := Service.settle p p.patience

/-- Tears the session down and waits for the end; any number of times, and whether or not it was
ever started. -/
def close (p : Parties ω) : Run ω Unit := do
  let s ← get
  set { s with life := .closed }
  match s.life with
  | .idle | .inCaller => closeHere p
  | .threaded =>
    modify fun s => (s.sendRequest .close).2
    settle p
    if !(← get).terminated.isSet then Run.hang
  | .closed => if !s.terminated.isSet then Run.hang

def reconnectHere (p : Parties ω) (options : Option Options) : Run ω Unit := do
  modify (adopted options)
  Link.renew p

/-- Connects anew with one attempt, with new options if there are some. -/
def reconnect (p : Parties ω) (options : Option Options) : Run ω Unit := do
  let s ← get
  if let some e := s.refusal then Run.raise e
  if s.life = .inCaller then holding (reconnectHere p options)
  else
    let (a, s) := s.requestReconnect options
    set s
    match a with
    | .ticket n =>
      settle p
      match (← get).reconnectReply? n with
      | some (.ok ()) => pure ()
      | some (.error e) => Run.raise e
      | none => Run.hang
    | _ => Run.raise s.alreadyClosed

/-- Submits a task: to the queue of a threaded session, and else it is run at once. -/
def assign (p : Parties ω) (t : Task) : Run ω Unit := do
  let s ← get
  if let some e := s.refusal then Run.raise e
  if s.life = .inCaller then holding (Task.perform p t)
  else
    let (r, s) := s.enqueue t
    set s
    match r with
    | .ok () => pure ()
    | .error e => Run.raise e

/-- Submits a task whose outcome the caller gets, if it was run at once. -/
def submit (p : Parties ω) (t : Task) : Run ω (Option Outcome) := do
  assign p (if (← get).life = .inCaller then t.keepingEvents else t)
  let s ← get
  return if s.life = .inCaller then some s.active.outcome else none

/-- Submits a query. A kill still in force was meant for an earlier one. -/
def execute (p : Parties ω) (t : Task) : Run ω (Option Outcome) := do
  modify fun s => { s with killed := false }
  submit p t

/-- Gives up a handle. With the last one the session goes: a worker finishes on its own. -/
def dropHandle (p : Parties ω) : Run ω Unit := do
  let left := (← get).giveUpHandle
  set left
  if left.handles = 0 ∧ (left.life = .idle ∨ left.life = .inCaller) then
    set { left with life := .closed }
    closeHere p

/-- The answer to a call that needs nobody else. -/
def answered (p : Parties ω) (c : Call) : Run ω Answer := fun s =>
  match answer p .caller c s with
  | (some a, s) => (.ok a, s)
  | (none, s) => (.error .hang, s)

/-- Does what a call asks for; a call that nothing stands in the way of is answered at once. -/
def perform (p : Parties ω) : Call → Run ω Answer
  | .start => Answer.result <$> Run.attempt (start p)
  | .close => Answer.result <$> Run.attempt (close p)
  | .reconnect options => Answer.result <$> Run.attempt (reconnect p options)
  | .queueReconnect options => do
    if (← get).life = .inCaller then Answer.result <$> Run.attempt (reconnect p options)
    else answered p (.queueReconnect options)
  | .execute t => Answer.outcome <$> Run.attempt (execute p t)
  | .submit t => Answer.outcome <$> Run.attempt (submit p t)
  | .assign t => Answer.result <$> Run.attempt (assign p t)
  | .dropHandle => do
    dropHandle p
    return .unit
  | c => answered p c

/-- Makes a call from outside and lets the worker go on until it has nothing left to do. -/
def call (p : Parties ω) (c : Call) : Run ω Answer := do
  let a ← perform p c
  settle p
  return a

end DatabaseSession.Session
