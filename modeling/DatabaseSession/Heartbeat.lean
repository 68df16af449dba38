import DatabaseSession.Turn

namespace DatabaseSession.Heartbeat

/-- Ticks on each of so many beats. A tick that says no or panics is the last one. -/
def run {σ : Type} (tick : σ → Except Panic Bool × σ) : Nat → σ → σ
  | 0, s => s
  | beats + 1, s =>
    match tick s with
    | (.ok true, s) => run tick beats s
    | (_, s) => s

end DatabaseSession.Heartbeat
