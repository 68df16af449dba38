import DatabaseSession.Options
import DatabaseSession.Task

namespace DatabaseSession

/-- A panic with the text it carries, if it carries one. -/
structure Panic where
  text : Option String := none
  deriving DecidableEq, Repr, Inhabited

namespace Panic

def message (p : Panic) : String := p.text.getD "unknown panic"

end Panic

/-- How a computation can end without a value. -/
inductive Stop where
  | error (e : Error)
  | panic (p : Panic)
  /-- It never comes back. -/
  | hang
  deriving DecidableEq, Repr

structure LastRunStats where
  lastError : Option ErrorReport := none
  lastExecutionTime : Option Duration := none
  lastInsertId : Option Int := none
  rowsAffected : Nat := 0
  deriving DecidableEq, Repr, Inhabited

/-- Whether a call is made on the thread that runs the tasks. -/
inductive Thread where
  | worker
  | caller
  deriving DecidableEq, Repr

/-- What can be asked of a session through its handles. -/
inductive Call where
  | start
  | close
  | isOpen
  | waitTerminated
  | reconnect (options : Option Options)
  /-- Has a reconnect queued without waiting for it. -/
  | queueReconnect (options : Option Options)
  /-- Waits for a queued reconnect. -/
  | awaitReconnect (ticket : Nat)
  /-- Submits a query and lifts a kill meant for an earlier one. -/
  | execute (task : Task)
  /-- Submits a task whose outcome the caller wants. -/
  | submit (task : Task)
  | assign (task : Task)
  | kill
  | isKilled
  | cancel (requestId : String)
  | isCancelled (requestId : String)
  | pending
  | status
  | info
  | defaultSchema
  | failures (tracker : String) (take : Bool)
  | cloneHandle
  | dropHandle
  deriving Repr

inductive Answer where
  | unit
  | flag (b : Bool)
  | count (n : Nat)
  | result (r : Except Error Unit)
  | outcome (r : Except Error (Option Outcome))
  | status (r : Except Error LastRunStats)
  | info (j : Json)
  | schema (s : Option String)
  | failures (fs : List Failure)
  /-- The reply to a request in the queue comes under this number. -/
  | ticket (n : Nat)
  deriving Repr

/-- The turn of an outside party over its own state: it may use the session before it is done,
itself or by another thread that moves meanwhile. -/
inductive Turn (ω : Type) (α : Type) where
  | done (x : Except Stop α) (w : ω)
  | ask (thread : Thread) (call : Call) (w : ω) (next : Answer → ω → Turn ω α)

namespace Turn

variable {ω κ α β γ : Type}

/-- Goes on with the value of a turn, if it has one. -/
def andThen : Turn ω α → (α → ω → Turn ω β) → Turn ω β
  | .done (.ok a) w, f => f a w
  | .done (.error s) w, _ => .done (.error s) w
  | .ask t c w next, f => .ask t c w fun a w => (next a w).andThen f

theorem andThen_pure (t : Turn ω α) : t.andThen (fun a w => .done (.ok a) w) = t := by
  induction t with
  | done x w => cases x <;> rfl
  | ask thread call w next ih => simp [andThen, ih]

theorem andThen_assoc (t : Turn ω α) (f : α → ω → Turn ω β) (g : β → ω → Turn ω γ) :
    (t.andThen f).andThen g = t.andThen fun a w => (f a w).andThen g := by
  induction t with
  | done x w => cases x <;> rfl
  | ask thread call w next ih => simp [andThen, ih]

/-- An error becomes a value; panics pass through. -/
def attempt : Turn ω α → Turn ω (Except Error α)
  | .done (.ok a) w => .done (.ok (.ok a)) w
  | .done (.error (.error e)) w => .done (.ok (.error e)) w
  | .done (.error (.panic p)) w => .done (.error (.panic p)) w
  | .done (.error .hang) w => .done (.error .hang) w
  | .ask t c w next => .ask t c w fun a w => (next a w).attempt

/-- A turn over one part of a state, the rest looking on. -/
def focus (look : ω → κ) (put : κ → ω → ω) : Turn κ α → ω → Turn ω α
  | .done x k, w => .done x (put k w)
  | .ask t c k next, w => .ask t c (put k w) fun a w => (next a (look w)).focus look put w

end Turn

/-- A move of an outside party: its turn from a state of its own. -/
def Play (ω : Type) (α : Type) := ω → Turn ω α

namespace Play

variable {ω κ α β : Type}

instance : Monad (Play ω) where
  pure a := fun w => .done (.ok a) w
  bind m f := fun w => (m w).andThen fun a => f a

instance : LawfulMonad (Play ω) := LawfulMonad.mk' _
  (fun m => funext fun w => Turn.andThen_pure (m w))
  (fun _ _ => rfl)
  (fun m f g => funext fun w => Turn.andThen_assoc (m w) f g)

def stop (s : Stop) : Play ω α := fun w => .done (.error s) w

def fail (e : Error) : Play ω α := stop (.error e)

def panic (p : Panic) : Play ω α := stop (.panic p)

def hang : Play ω α := stop .hang

/-- A move that only looks at the state and changes it. -/
def lift (f : StateM ω α) : Play ω α := fun w =>
  let (a, w) := f w
  .done (.ok a) w

def get : Play ω ω := fun w => .done (.ok w) w

def set (w : ω) : Play ω Unit := fun _ => .done (.ok ()) w

def modify (f : ω → ω) : Play ω Unit := fun w => .done (.ok ()) (f w)

def ask (thread : Thread) (call : Call) : Play ω Answer := fun w =>
  .ask thread call w fun a w => .done (.ok a) w

def attempt (m : Play ω α) : Play ω (Except Error α) := fun w => (m w).attempt

def focus (look : ω → κ) (put : κ → ω → ω) (m : Play κ α) : Play ω α := fun w =>
  (m (look w)).focus look put w

/-- A move of the second of two parties that share a state. -/
def beside (m : Play ω α) : Play (κ × ω) α :=
  focus Prod.snd (fun w kw => (kw.1, w)) m

end Play
end DatabaseSession
