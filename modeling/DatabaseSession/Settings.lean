import DatabaseSession.Duration

namespace DatabaseSession

/-- How a session drives its connection. -/
structure Settings where
  /-- Tasks run on a worker thread; else in the caller. -/
  threaded : Bool := true
  /-- The longest wait for the statistics while a task runs. -/
  statusTimeout : Duration := ⟨5, 0⟩
  /-- How often a statement is run again after a lost connection was restored. -/
  statementRetries : Nat := 1
  /-- Attempts of an automatic reconnect; at least one is made. -/
  reconnectAttempts : Nat := 3
  reconnectDelay : Duration := ⟨5, 0⟩
  deriving DecidableEq, Repr, Inhabited

end DatabaseSession
