import DatabaseSession.Session.Answer

namespace DatabaseSession

/-- A computation on a session that may stop with an error, a panic, or not at all. -/
abbrev Run (ω : Type) := ExceptT Stop (StateM (Session ω))

namespace Run

variable {ω α β : Type}

def raise (e : Error) : Run ω α := throw (.error e)

def hang : Run ω α := throw .hang

/-- Plays a turn, answering each call made in it. -/
def play (p : Parties ω) : Turn ω α → Session ω → Except Stop α × Session ω
  | .done x w, s => (x, { s with outside := w })
  | .ask thread call w next, s =>
    match Session.answer p thread call { s with outside := w } with
    | (some a, s) => play p (next a s.outside) s
    | (none, s) => (.error .hang, s)

/-- Gives an outside party its turn. -/
def party (p : Parties ω) (m : Play ω α) : Run ω α := fun s => play p (m s.outside) s

/-- A turn brings its own state along. -/
theorem play_outside (p : Parties ω) (t : Turn ω α) (s : Session ω) (w : ω) :
    play p t { s with outside := w } = play p t s := by
  cases t <;> simp [play]

/-- An error becomes a value; a panic goes on. -/
def attempt (m : Run ω α) : Run ω (Except Error α) := fun s =>
  match m s with
  | (.ok a, s) => (.ok (.ok a), s)
  | (.error (.error e), s) => (.ok (.error e), s)
  | (.error (.panic q), s) => (.error (.panic q), s)
  | (.error .hang, s) => (.error .hang, s)

/-- A panic becomes a value; an error goes on. -/
def guarded (m : Run ω α) : Run ω (Except Panic α) := fun s =>
  match m s with
  | (.ok a, s) => (.ok (.ok a), s)
  | (.error (.panic q), s) => (.ok (.error q), s)
  | (.error (.error e), s) => (.error (.error e), s)
  | (.error .hang, s) => (.error .hang, s)

/-- For a party that has no way to report an error: one that does so all the same gives the
default. -/
def valueOr (default : α) (m : Run ω α) : Run ω α := do
  match ← attempt m with
  | .ok a => return a
  | .error _ => return default

def always (m : Run ω Unit) : Run ω Unit := valueOr () m

def shielded (m : Run ω Unit) : Run ω Unit := do
  let _ ← guarded (always m)

/-- Does `after` however `m` stops. A panic during the cleaning up after another one takes all
down. -/
def ensuring (m : Run ω α) (after : Run ω Unit) : Run ω α := fun s =>
  match m s with
  | (.error .hang, s) => (.error .hang, s)
  | (.error (.panic q), s) =>
    match after s with
    | (.error .hang, s) | (.error (.panic _), s) => (.error .hang, s)
    | (_, s) => (.error (.panic q), s)
  | (x, s) =>
    match after s with
    | (.error stop, s) => (.error stop, s)
    | (.ok _, s) => (x, s)

/-- Does `after` only when `m` panics. -/
def onPanic (m : Run ω α) (after : Run ω Unit) : Run ω α := fun s =>
  match m s with
  | (.error (.panic q), s) =>
    match after s with
    | (.error .hang, s) | (.error (.panic _), s) => (.error .hang, s)
    | (_, s) => (.error (.panic q), s)
  | r => r

/-- Nanoseconds on the clock. -/
def now (p : Parties ω) : Run ω Nat := do return p.clock (← get).outside

end Run
end DatabaseSession
