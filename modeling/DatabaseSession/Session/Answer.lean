import DatabaseSession.Session

namespace DatabaseSession

namespace Mailbox

def push (m : Mailbox) (j : Request) : Mailbox := { m with queue := m.queue ++ [j] }

end Mailbox

namespace Session

variable {ω : Type}

/-- Puts a request into the worker's queue, if the worker still takes any. -/
def sendRequest (s : Session ω) (j : Request) : Bool × Session ω :=
  if s.mailbox.receiving then (true, { s with mailbox := s.mailbox.push j }) else (false, s)

/-- Registers a task and queues it, with the handle it may keep; what the queue refuses is not
registered. -/
def enqueue (s : Session ω) (t : Task) : Except Error Unit × Session ω :=
  let registered := { s with registry := s.registry.enqueueOptional t.requestId }
  match registered.sendRequest (.task t) with
  | (true, sent) => (.ok (), { sent with handles := sent.handles + t.handles })
  | (false, refused) =>
    (.error s.alreadyClosed,
      { refused with registry := (refused.registry.beginOptional t.requestId).2 })

/-- Why a session in this state takes no tasks and reconnects; none when it is open. -/
def refusal (s : Session ω) : Option Error :=
  match s.life with
  | .idle => some s.notYetOpen
  | .closed => some s.alreadyClosed
  | .threaded | .inCaller => none

def requestReconnect (s : Session ω) (options : Option Options) : Answer × Session ω :=
  let n := s.mailbox.tickets
  match s.sendRequest (.reconnect options n) with
  | (true, sent) => (.ticket n, { sent with mailbox := { sent.mailbox with tickets := n + 1 } })
  | (false, refused) => (.result (.error s.alreadyClosed), refused)

def goneBeforeReconnecting (s : Session ω) : Error :=
  s.fault .workerGone "The session thread exited before reconnecting."

/-- What a queued reconnect came to, if that is settled. A worker that is gone settles it. -/
def reconnectReply? (s : Session ω) (ticket : Nat) : Option (Except Error Unit) :=
  match s.mailbox.replies.lookup ticket with
  | some (some r) => some r
  | some none => some (.error s.goneBeforeReconnecting)
  | none => if s.mailbox.receiving then none else some (.error s.goneBeforeReconnecting)

/-- Asks the worker to stop; later calls find the session closed. -/
def requestClose (s : Session ω) : Session ω := { (s.sendRequest .close).2 with life := .closed }

/-- Gives up a handle; with the last one a worker is told to stop. -/
def giveUpHandle (s : Session ω) : Session ω :=
  let left := { s with handles := s.handles - 1 }
  if left.handles = 0 ∧ left.life = .threaded then left.requestClose else left

def kill (p : Parties ω) (s : Session ω) : Session ω :=
  { s with
    killed := true
    outside := match s.published.interrupter with
      | some handle => p.interrupt handle s.outside
      | none => s.outside }

/-- The statistics are out of reach for other threads while a task holds them. -/
def status (s : Session ω) (thread : Thread) : Except Error LastRunStats :=
  if s.statsHeld ∧ thread = .caller then .error .timeout else .ok s.stats

/-- What a queued submission is answered, its task being `t`. -/
def answerSubmission (s : Session ω) (t : Task) (wrap : Except Error Unit → Answer) :
    Option Answer × Session ω :=
  if s.locked then (none, s)
  else
    match s.refusal with
    | some e => (some (wrap (.error e)), s)
    | none =>
      if s.life = .inCaller then (none, s)
      else
        let (r, s) := s.enqueue t
        (some (wrap r), s)

def outcomeAnswer (r : Except Error Unit) : Answer := .outcome (r.map fun _ => none)

/-- Answers a call made while others go on with theirs. A request that the worker serves later is
answered when it is queued. There is no answer to a call that would wait for ever. -/
def answer (p : Parties ω) (thread : Thread) (call : Call) (s : Session ω) :
    Option Answer × Session ω :=
  match call with
  | .start =>
    if s.locked then (none, s)
    else match s.life with
      | .idle => (none, s)
      | .closed => (some (.result (.error s.alreadyClosed)), s)
      | .threaded | .inCaller =>
        (some (.result (.error (s.fault .alreadyOpen "The session is already open."))), s)
  | .close =>
    if s.locked then (none, s)
    else match s.life with
      | .idle | .inCaller => (none, s)
      | .threaded => (some (.result (.ok ())), s.requestClose)
      | .closed => (some (.result (.ok ())), s)
  | .isOpen => if s.locked then (none, s) else (some (.flag s.isOpen), s)
  | .waitTerminated => (some (.flag s.terminated.isSet), s)
  | .reconnect options =>
    if s.locked then (none, s)
    else match s.refusal with
      | some e => (some (.result (.error e)), s)
      | none =>
        if s.life = .inCaller then (none, s)
        else
          match s.requestReconnect options with
          | (.ticket _, s) => (none, s)
          | (a, s) => (some a, s)
  | .queueReconnect options =>
    if s.locked then (none, s)
    else match s.refusal with
      | some e => (some (.result (.error e)), s)
      | none =>
        if s.life = .inCaller then (none, s)
        else
          let (a, s) := s.requestReconnect options
          (some a, s)
  | .awaitReconnect ticket => ((s.reconnectReply? ticket).map .result, s)
  | .execute t => { s with killed := false }.answerSubmission t outcomeAnswer
  | .submit t => s.answerSubmission t outcomeAnswer
  | .assign t => s.answerSubmission t .result
  | .kill => (some .unit, s.kill p)
  | .isKilled => (some (.flag s.killed), s)
  | .cancel id =>
    let (b, registry) := s.registry.cancel id
    (some (.flag b), { s with registry })
  | .isCancelled id => (some (.flag (s.registry.isCancelled id)), s)
  | .pending => (some (.count s.registry.pending), s)
  | .status => (some (.status (s.status thread)), s)
  | .info => (some (.info s.info), s)
  | .defaultSchema => (some (.schema s.published.defaultSchema), s)
  | .failures tracker take =>
    let fs := Trackers.failures s.trackers tracker
    (some (.failures fs),
      if take then { s with trackers := Trackers.set s.trackers tracker [] } else s)
  | .cloneHandle => (some .unit, { s with handles := s.handles + 1 })
  | .dropHandle =>
    let left := s.giveUpHandle
    if 0 < left.handles ∨ left.life = .closed then (some .unit, left) else (none, left)

end Session
end DatabaseSession
