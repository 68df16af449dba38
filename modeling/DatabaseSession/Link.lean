import DatabaseSession.Run

namespace DatabaseSession.Link

variable {ω : Type}

def announce (p : Parties ω) (notice : ConnectionNotice) : Run ω Unit :=
  p.connectionObservers.forM fun observe => Run.shielded (Run.party p (observe notice))

/-- Refuses what a released connection can no longer do. -/
def ensureHeld : Run ω Unit := do
  let s ← get
  if s.link.released then Run.raise s.alreadyClosed

/-- The connection and the setup on it, up to the first setup that fails. -/
def establish (p : Parties ω) : Run ω Unit := do
  let s ← get
  Run.party p (p.backend.connect s.link.options)
  p.hooks.forM fun hook => Run.party p hook.onConnected

/-- One attempt, told to every hook and observer. -/
def tryConnect (p : Parties ω) (attempt : Attempt) : Run ω Unit := do
  p.hooks.forM fun hook => Run.always (Run.party p hook.onConnect)
  announce p (.connecting attempt)
  match ← Run.attempt (establish p) with
  | .ok () => announce p (.connected attempt)
  | .error e =>
    p.hooks.forM fun hook => Run.always (Run.party p (hook.onFailed e))
    announce p (.failed attempt e)
    Run.raise e

def connect (p : Parties ω) : Run ω Unit := do
  ensureHeld
  tryConnect p .opening

/-- Whether the connection can be automatically restored is settled for life. -/
def adoptOptions (c : Link) (o : Options) : Link :=
  { c with options := { o with autoReconnect := c.options.autoReconnect } }

/-- The old connection is dropped before the attempt. -/
def reconnectOnce (p : Parties ω) (cause : ReconnectCause) : Run ω Unit := do
  Run.always (Run.party p p.backend.disconnect)
  tryConnect p (.reconnect cause)
  modify fun s => { s with link := { s.link with reconnects := s.link.reconnects + 1 } }

/-- Attempts until one succeeds, with at most `more` further ones after the first. -/
def reconnectUpTo (p : Parties ω) (cause : ReconnectCause) : Nat → Run ω Unit
  | 0 => reconnectOnce p cause
  | more + 1 => do
    match ← Run.attempt (reconnectOnce p cause) with
    | .ok () => pure ()
    | .error _ => reconnectUpTo p cause more

def attempts (settings : Settings) : ReconnectCause → Nat
  | .user => 1
  | .automatic => max settings.reconnectAttempts 1

def reconnect (p : Parties ω) (cause : ReconnectCause) : Run ω Unit := do
  ensureHeld
  reconnectUpTo p cause (attempts (← get).settings cause - 1)

/-- An automatic reconnect, if the session allows one; tells whether the connection is back. -/
def restore (p : Parties ω) : Run ω Bool := do
  if (← get).link.options.autoReconnect then
    match ← Run.attempt (reconnect p .automatic) with
    | .ok () => return true
    | .error _ => return false
  else return false

/-- A sign of life; a lost connection is restored if the session allows it. -/
def checkAlive (p : Parties ω) : Run ω Unit := do
  if (← get).link.released then return ()
  match ← Run.attempt (Run.party p p.backend.ping) with
  | .ok () => pure ()
  | .error e =>
    if e.losesConnection then
      let _ ← restore p

/-- Teardown for good, at most once: the hooks first, then the backend. -/
def release (p : Parties ω) : Run ω Unit := do
  let s ← get
  if s.link.released then return ()
  set { s with link := { s.link with released := true } }
  p.hooks.forM fun hook => Run.always (Run.party p hook.onClose)
  Run.always (Run.party p p.backend.release)

/-- The link's end: what is not yet released is, and the backend is disposed of. -/
def drop (p : Parties ω) : Run ω Unit :=
  Run.ensuring (release p) (Run.always (Run.party p p.backend.dispose))

/-- Makes known what the backend reports about a fresh connection. -/
def publish (p : Parties ω) : Run ω Unit := do
  let info ← Run.valueOr .null (Run.party p p.backend.info)
  modify fun s => { s with published := { s.published with info } }
  let defaultSchema ← Run.valueOr none (Run.party p p.backend.defaultSchema)
  modify fun s => { s with published := { s.published with defaultSchema } }
  let interrupter ← Run.valueOr none (Run.party p p.backend.interrupter)
  modify fun s => { s with published := { s.published with interrupter } }

/-- A reconnect that a caller asked for is made known if it succeeds. -/
def renew (p : Parties ω) : Run ω Unit := do
  reconnect p .user
  publish p

end DatabaseSession.Link

def DatabaseSession.Session.adopted {ω : Type} (options : Option Options) (s : Session ω) :
    Session ω :=
  match options with
  | some o => { s with link := Link.adoptOptions s.link o }
  | none => s
