import DatabaseSession.Event

namespace DatabaseSession

/-- Where a task's events go: to the inbox of a receiver, to a callback, or nowhere. -/
inductive Sink where
  | channel (inbox : Nat)
  | callback (key : Nat)
  | discard
  deriving DecidableEq, Repr, Inhabited

namespace Sink

def describe : Sink → String
  | .channel _ => "ResultSink::Channel"
  | .callback _ => "ResultSink::Callback"
  | .discard => "ResultSink::Discard"

end Sink

/-- A task that ended in an error or was cancelled. -/
structure Failure where
  requestId : Option String
  state : Progress
  error : Option ErrorReport := none
  deriving DecidableEq, Repr

/-- Sends the events of one task and lets only one terminal state through. -/
structure Courier where
  requestId : Option String := none
  sink : Sink := .discard
  tracker : Option String := none
  recorded : Option (List Event) := none
  terminal : Option Progress := none
  deriving DecidableEq, Repr, Inhabited

namespace Courier

/-- Keeps a copy of every event from now on; a recording under way goes on. -/
def startRecording (d : Courier) : Courier := { d with recorded := some (d.recorded.getD []) }

def stopRecording (d : Courier) : List Event × Courier :=
  (d.recorded.getD [], { d with recorded := none })

/-- What sending brings about: the event to hand over, the failure to track, and the courier
afterwards. -/
structure Delivery where
  event : Event
  failure : Option Failure
  next : Courier
  deriving DecidableEq, Repr

/-- Nothing is sent after a terminal state. -/
def send (d : Courier) (state : Progress) (message : Option String := none)
    (data : Option EventData := none) (error : Option ErrorReport := none) : Option Delivery :=
  if d.terminal.isSome then none
  else
    let event : Event := ⟨d.requestId, state, message, error, data⟩
    some {
      event
      failure := if state.isFailure then some ⟨d.requestId, state, error⟩ else none
      next := { d with
        terminal := if state.isTerminal then some state else none
        recorded := d.recorded.map (· ++ [event]) } }

end Courier

/-- Failures by tracker, each list in the order they came. -/
abbrev Trackers := List (String × List Failure)

namespace Trackers

def failures (t : Trackers) (name : String) : List Failure := (t.lookup name).getD []

def set (t : Trackers) (name : String) (fs : List Failure) : Trackers :=
  (name, fs) :: t.filter fun e => e.1 ≠ name

def add (t : Trackers) (name : String) (f : Failure) : Trackers :=
  set t name (failures t name ++ [f])

theorem lookup_filter_other (t : Trackers) {name other : String} (h : other ≠ name) :
    (t.filter fun e => e.1 ≠ name).lookup other = t.lookup other := by
  induction t with
  | nil => rfl
  | cons e t ih =>
    by_cases he : e.1 = name
    · have hne : (other == e.1) = false := by simpa [he] using h
      rw [List.filter_cons_of_neg (by simpa using he), ih, List.lookup_cons, hne]
    · rw [List.filter_cons_of_pos (by simpa using he), List.lookup_cons, List.lookup_cons, ih]

theorem failures_set (t : Trackers) (name other : String) (fs : List Failure) :
    failures (set t name fs) other = if other = name then fs else failures t other := by
  by_cases h : other = name
  · simp [failures, set, h]
  · have hne : (other == name) = false := by simpa using h
    simp only [failures, set, List.lookup_cons, hne, lookup_filter_other t h, if_neg h]

theorem failures_add (t : Trackers) (name other : String) (f : Failure) :
    failures (add t name f) other =
      failures t other ++ if other = name then [f] else [] := by
  by_cases h : other = name <;> simp [add, failures_set, h]

end Trackers
end DatabaseSession
