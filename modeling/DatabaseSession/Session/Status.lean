import DatabaseSession.Binary64.Fixed
import DatabaseSession.Session
import DatabaseSession.Text.Quoted

namespace DatabaseSession

structure Status where
  state : Progress
  message : String
  deriving DecidableEq, Repr

namespace LastRunStats

def summary (s : LastRunStats) : Status :=
  match s.lastError with
  | some e => ⟨.error, e.message⟩
  | none =>
    let seconds := (s.lastExecutionTime.getD ⟨0, 0⟩).toSeconds
    ⟨.ok, "Query finished in " ++ seconds.fixed 3 ++ " seconds."⟩

end LastRunStats

namespace Session

variable {ω : Type}

def describe (s : Session ω) : String :=
  "Session \x7b id: " ++ Text.quoted s.id ++ ", backend: " ++ Text.quoted s.backendName
    ++ ", threaded: " ++ (if s.settings.threaded then "true" else "false") ++ ", .. \x7d"

end Session

namespace Parties

variable {ω : Type}

def describeHooks (p : Parties ω) : String :=
  "ConnectionHooks \x7b observers: " ++ toString p.connectionObservers.length ++ ", setup: "
    ++ toString p.hooks.length ++ " \x7d"

end Parties
end DatabaseSession
