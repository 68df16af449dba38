import DatabaseSession.Proofs.Ending
import DatabaseSession.Proofs.Reconnects

namespace DatabaseSession.Query

open Run

variable {ω : Type} {p : Parties ω}

/-- One try at a statement in the log: it is executed once, first of all, and the try fails by the
one error that it got. -/
structure Tried (sql : String) (params : List Value) (entries : Log) (fault : Option Error) :
    Prop where
  executes : ∃ rest, entries = .called (.execute sql params) :: rest ∧
    ∀ d ∈ Log.calls rest, d.isFollowUp = true
  faults : Log.faults entries = fault.toList

/-- The tries at a statement. There is a further one only after a try that sent nothing, lost its
connection, and was followed by an automatic reconnect that succeeded. -/
inductive Tries (hooks : Nat) (auto : Bool) (sql : String) (params : List Value) :
    Nat → Log → List Event → Option Error → Session (Log × ω) → Session (Log × ω) → Prop where
  | last {retries : Nat} {entries gap : Log} {events : List Event} {fault : Option Error}
      {s s₁ s' : Session (Log × ω)} (htry : Tried sql params entries fault)
      (hsent : Task.Sends entries events s s₁) (hgap : Link.Connects gap s₁ s') :
      Tries hooks auto sql params retries (entries ++ gap) events fault s s'
  | again {retries : Nat} {entries gap rest : Log} {events : List Event} {e : Error}
      {fault : Option Error} {s s₁ s₂ s' : Session (Log × ω)}
      (htry : Tried sql params entries (some e)) (hlost : e.losesConnection = true)
      (hsent : Task.Sends entries [] s s₁) (hauto : auto = true)
      (hgap : Link.Connects gap s₁ s₂) (hback : Link.Connected hooks gap)
      (hrest : Tries hooks auto sql params retries rest events fault s₂ s') :
      Tries hooks auto sql params (retries + 1) (entries ++ (gap ++ rest)) events fault s s'

def restarted (s : Session ω) : Session ω :=
  { s with active := { s.active with streamed := false } }

/-- The statements of a query, one after the other up to the first that fails. No statements at all
are answered with an empty result. -/
inductive Batch (hooks : Nat) (auto : Bool) (retries : Nat) (params : List Value) :
    List String → Log → List Event → Option Error → Session (Log × ω) → Session (Log × ω) →
      Prop where
  | nothing {entries : Log} {event : Event} {s s' : Session (Log × ω)}
      (hstate : event.state = .ok) (hsent : Task.Sends entries [event] s s')
      (hcalls : ∀ d ∈ Log.calls entries, d.isFollowUp = true) :
      Batch hooks auto retries params [] entries [event] none s s'
  | only {sql : String} {entries : Log} {events : List Event} {s s' : Session (Log × ω)}
      (htries : Tries hooks auto sql params retries entries events none (restarted s) s') :
      Batch hooks auto retries params [sql] entries events none s s'
  | failed {sql : String} {rest : List String} {entries : Log} {events : List Event} {e : Error}
      {s s' : Session (Log × ω)}
      (htries : Tries hooks auto sql params retries entries events (some e) (restarted s) s') :
      Batch hooks auto retries params (sql :: rest) entries events (some e) s s'
  | next {sql sql' : String} {rest : List String} {entries entries' : Log}
      {events events' : List Event} {fault : Option Error} {s s₁ s' : Session (Log × ω)}
      (htries : Tries hooks auto sql params retries entries events none (restarted s) s₁)
      (hrest : Batch hooks auto retries params (sql' :: rest) entries' events' fault s₁ s') :
      Batch hooks auto retries params (sql :: sql' :: rest) (entries ++ entries')
        (events ++ events') fault s s'

theorem executions_followUp {log : Log} (h : ∀ d ∈ Log.calls log, d.isFollowUp = true) :
    Log.executions log = [] := by
  refine List.filterMap_eq_nil_iff.mpr fun d hd => ?_
  have hfollow := h d hd
  cases d <;> simp_all [Duty.isFollowUp]

theorem executions_connecting {log : Log} {kind : Attempt → Bool}
    (h : ∀ d ∈ Log.calls log, d.isConnecting kind = true) : Log.executions log = [] := by
  refine List.filterMap_eq_nil_iff.mpr fun d hd => ?_
  have hconnect := h d hd
  cases d <;> simp_all [Duty.isConnecting]

section Tries

variable {hooks : Nat} {auto : Bool} {sql : String} {params : List Value} {retries : Nat}
variable {statements : List String} {new entries : Log} {es : List Event} {fault : Option Error}
variable {s s' : Session (Log × ω)}

theorem Tried.executions (h : Tried sql params entries fault) :
    Log.executions entries = [(sql, params)] := by
  obtain ⟨rest, rfl, hrest⟩ := h.executes
  have hsplit : Log.executions (.called (.execute sql params) :: rest) =
      (sql, params) :: Log.executions rest := rfl
  rw [hsplit, executions_followUp hrest]

/-- A statement is executed at least once, and at most once more than there are retries. -/
theorem Tries.executions (h : Tries hooks auto sql params retries new es fault s s') :
    ∃ times, 1 ≤ times ∧ times ≤ retries + 1 ∧ (auto = false → times = 1) ∧
      Log.executions new = .replicate times (sql, params) := by
  induction h with
  | last htry hsent hgap =>
    refine ⟨1, by omega, by omega, fun _ => rfl, ?_⟩
    rw [Log.executions_append, htry.executions, executions_connecting hgap.duties]
    rfl
  | again htry hlost hsent hauto hgap hback hrest ih =>
    obtain ⟨times, hpos, hbound, -, hexec⟩ := ih
    refine ⟨times + 1, by omega, by omega, by simp [hauto], ?_⟩
    rw [Log.executions_append, Log.executions_append, htry.executions,
      executions_connecting hgap.duties, hexec]
    rfl

theorem Tries.sends (h : Tries hooks auto sql params retries new es fault s s') :
    Task.Sends new es s s' := by
  induction h with
  | last htry hsent hgap => simpa using hsent.append hgap.sends
  | again htry hlost hsent hauto hgap hback hrest ih =>
    exact hsent.append (hgap.sends.append ih)

theorem restarted_sends (s : Session (Log × ω)) : Task.Sends [] [] s (restarted s) :=
  .silent (by simp [Session.log, restarted]) rfl rfl rfl (by simp [Log.taken, restarted])

theorem Batch.sends (h : Batch hooks auto retries params statements new es fault s s') :
    Task.Sends new es s s' := by
  induction h with
  | nothing _ hsent _ => exact hsent
  | only htries => exact (restarted_sends _).append htries.sends
  | failed htries => exact (restarted_sends _).append htries.sends
  | next htries hrest ih => exact ((restarted_sends _).append htries.sends).append ih

/-- The executions of a batch: so many of each statement, up to the one that fails. -/
theorem Batch.executions (h : Batch hooks auto retries params statements new es fault s s') :
    ∃ times : List Nat, times.length ≤ statements.length ∧
      (fault = none → times.length = statements.length) ∧
      (∀ n ∈ times, 1 ≤ n ∧ n ≤ retries + 1 ∧ (auto = false → n = 1)) ∧
      Log.executions new =
        (statements.zip times).flatMap fun x => .replicate x.2 (x.1, params) := by
  induction h with
  | nothing _ _ hcalls => exact ⟨[], by simp, by simp, by simp, executions_followUp hcalls⟩
  | only htries | failed htries =>
    obtain ⟨times, hpos, hbound, hauto, hexec⟩ := htries.executions
    exact ⟨[times], by simp, by simp, List.forall_mem_singleton.mpr ⟨hpos, hbound, hauto⟩,
      by simp [hexec]⟩
  | next htries hrest ih =>
    obtain ⟨times, hpos, hbound, hauto, hexec⟩ := htries.executions
    obtain ⟨more, hlen, hall, hmore, hexec'⟩ := ih
    refine ⟨times :: more, by simpa using hlen, by simpa using hall,
      List.forall_mem_cons.mpr ⟨⟨hpos, hbound, hauto⟩, hmore⟩, ?_⟩
    rw [Log.executions_append, hexec, hexec']
    rfl

end Tries

/-- How a statement, or a batch, ends that has this fault. -/
def verdict : Option Error → Except Stop Unit
  | none => .ok ()
  | some e => .error (.error e)

/-- What is left when a statement, the last one or not, is through with. -/
structure Resolved (last : Bool) (es : List Event) (fault : Option Error) (x : Except Stop Unit)
    (s s' : Session (Log × ω)) : Prop where
  verdict : x = verdict fault
  killed : s'.killed = false
  settings : s'.settings = s.settings
  options : s'.link.options = s.link.options
  states : ∀ e ∈ es, e.state = .pending ∨ e.state = .ok
  leavesOpen : last = false ∨ fault ≠ none → s'.active.courier.terminal = none

/-- What a further try is, if there is one left. -/
def retry (p : Parties ω) (q : Query) (sql : String) (last : Bool) : Nat → Option (Run ω Unit)
  | 0 => none
  | retries + 1 => some (runWithRetries p q sql last retries)

theorem runWithRetries_apply (p : Parties ω) (q : Query) (sql : String) (last : Bool)
    (retries : Nat) (s : Session ω) :
    runWithRetries p q sql last retries s = match attemptStatement p q sql last s with
      | (.error (.error e), s') => afterFailure p sql e (retry p q sql last retries) s'
      | r => r := by
  cases retries <;> rw [runWithRetries, bind_apply, attempt] <;>
    rcases attemptStatement p q sql last s with ⟨(_ | _ | _) | _, s'⟩ <;> rfl

/-- Without a kill, a failed attempt is made up for only if it lost its connection, has sent
nothing, and a try is left. -/
theorem afterFailure_apply (p : Parties ω) (sql : String) (e : Error) (again : Option (Run ω Unit))
    {s : Session ω} (hk : s.killed = false) :
    afterFailure p sql e again s = match again with
      | some retry =>
        if e.losesConnection && !s.active.streamed then
          (Link.restore p >>= fun back => if back then retry else raise e) s
        else (.error (.error e), s)
      | none => (.error (.error e), s) := by
  unfold afterFailure
  rw [get_bind_apply, hk]
  cases again with
  | none => rfl
  | some retry => cases h : e.losesConnection && !s.active.streamed <;> rfl

/-- What comes of a failed attempt: the kill switch replaces its error, the error is passed on, or
the connection is restored for another try. -/
inductive Aftermath (p : Parties ω) (sql : String) (e : Error) (again : Option (Run ω Unit))
    (s : Session ω) : Except Stop Unit → Session ω → Prop where
  | replaced (hon : s.killed = true) :
      Aftermath p sql e again s (.error (.error (.killed (some sql)))) s
  | passed (he : s.killed = true → e.isKilled = true) :
      Aftermath p sql e again s (.error (.error e)) s
  | abandoned {y : Except Stop Bool} {stop : Stop} {s' : Session ω} (hoff : s.killed = false)
      (hback : Link.restore p s = (y, s')) : Aftermath p sql e again s (.error stop) s'
  | retried {retry : Run ω Unit} {x : Except Stop Unit} {s₁ s' : Session ω}
      (hagain : retry ∈ again) (hoff : s.killed = false)
      (hback : Link.restore p s = (.ok true, s₁)) (hrun : retry s₁ = (x, s')) :
      Aftermath p sql e again s x s'

theorem afterFailure_cases {p : Parties ω} {sql : String} {e : Error} {again : Option (Run ω Unit)}
    {s s' : Session ω} {x : Except Stop Unit} (hrun : afterFailure p sql e again s = (x, s')) :
    Aftermath p sql e again s x s' := by
  unfold afterFailure at hrun
  rw [get_bind_apply] at hrun
  split at hrun
  · next hkilled =>
    cases hrun
    exact .replaced (Bool.and_eq_true_iff.mp hkilled).1
  · next hkilled =>
    rw [Bool.and_eq_true, Bool.not_eq_true', not_and, Bool.not_eq_false] at hkilled
    cases again with
    | none =>
      cases hrun
      exact .passed hkilled
    | some retry =>
      dsimp only at hrun
      split at hrun
      · next hlost =>
        have hoff : s.killed = false := by
          -- a lost connection does not tell of a kill
          refine Bool.eq_false_iff.mpr fun hon => ?_
          have he := hkilled hon
          cases e <;> simp_all [Error.isKilled, Error.losesConnection]
        rw [bind_apply] at hrun
        rcases hback : Link.restore p s with ⟨stop | back, s₁⟩ <;> rw [hback] at hrun
        · cases hrun
          exact .abandoned hoff hback
        · cases back with
          | true => exact .retried rfl hoff hback hrun
          | false =>
            cases hrun
            exact .abandoned hoff hback
      · cases hrun
        exact .passed hkilled

section Sending

variable (p : Parties ω) (q : Query)

theorem sending_readSets (sql : String) (last : Bool) (started : Nat) :
    Follows (Task.sending fun _ => True) (readSets p.logged q sql last started p.patience) :=
  follows_readSets (Task.sending_covers _ p fun _ _ => trivial).toReading (fun _ => trivial)
    q sql last started _

theorem sending_runWithRetries (sql : String) (last : Bool) (retries : Nat) :
    Follows (Task.sending fun _ => True) (runWithRetries p.logged q sql last retries) :=
  follows_runWithRetries (Task.sending_covers _ p fun _ _ => trivial) q sql last
    (sending_readSets p q sql last) retries

theorem sending_afterFailure (sql : String) (e : Error) (last : Bool) (retries : Nat) :
    Follows (Task.sending fun _ => True)
      (afterFailure p.logged sql e (retry p.logged q sql last retries)) := by
  have hc := Task.sending_covers (fun _ => True) p fun _ _ => trivial
  refine follows_afterFailure (Link.follows_restore hc.toConnecting rfl) sql e _ ?_
  intro m hm
  cases retries with
  | zero => cases hm
  | succ n =>
    cases hm
    exact sending_runWithRetries p q sql last n

theorem sending_runStatements (statements : List String) :
    Follows (Task.sending fun _ => True) (runStatements p.logged q statements) :=
  follows_runStatements (Task.sending_covers _ p fun _ _ => trivial) q (sending_readSets p q)
    statements

end Sending

section Runs

variable {new : Log} {x : Except Stop Unit} {s s' : Session (Log × ω)}

theorem exists_growth {m : Run (Log × ω) Unit} (hm : Follows (Task.sending fun _ => True) m)
    (hrun : m s = (x, s')) (hx : x ≠ .error .hang) : ∃ new, s'.log = s.log ++ new := by
  have h := hm s
  rw [hrun] at h
  obtain ⟨new, _, hs, -⟩ := h.goes hx
  exact ⟨new, hs.log⟩

/-- What came of a statement that was tried so many times. -/
def Settled (p : Parties ω) (q : Query) (sql : String) (last : Bool) (retries : Nat) (new : Log)
    (x : Except Stop Unit) (s s' : Session (Log × ω)) : Prop :=
  ∃ es fault,
    Tries p.hooks.length s.link.options.autoReconnect sql q.params retries new es fault s s' ∧
    Resolved last es fault x s s'

section Failure

variable {q : Query} {sql : String} {last : Bool} {retries : Nat} {entries gap : Log}
variable {es : List Event} {e : Error} {s₁ s₂ : Session (Log × ω)}

theorem settled_of_failure
    (hfail : Attempted sql q.params last (.error (.error e)) entries es s s₁)
    (hgap : Link.Connects gap s₁ s₂) (hcalm : Log.Calm (entries ++ gap)) (hk : s.killed = false)
    (hopen : s.active.courier.terminal = none) :
    Settled p q sql last retries (entries ++ gap) (.error (.error e)) s s₂ := by
  obtain ⟨hk₁, hfaults⟩ := hfail.accounted hk hcalm.left
  refine ⟨es, some e, .last ⟨hfail.entries, hfaults⟩ hfail.sends hgap, rfl,
    hgap.killed hk₁ hcalm.right, hgap.settings.trans hfail.settings, ?_, hfail.states, fun _ => ?_⟩
  · rw [hgap.options, hfail.link]
  · rw [hgap.active, (hfail.leavesOpen trivial).terminal, hopen]

theorem settled_of_retry {rest : Log}
    (hfail : Attempted sql q.params last (.error (.error e)) entries es s s₁)
    (hlost : e.losesConnection = true) (hstreamed : s₁.active.streamed = false)
    (hgap : Link.Connects gap s₁ s₂) (hauto : s₁.link.options.autoReconnect = true)
    (hback : Link.Connected p.hooks.length gap) (hk : s.killed = false) (hcalm : Log.Calm entries)
    (hrest : Settled p q sql last retries rest x s₂ s') :
    Settled p q sql last (retries + 1) (entries ++ (gap ++ rest)) x s s' := by
  obtain ⟨hk₁, hfaults⟩ := hfail.accounted hk hcalm
  obtain rfl : es = [] := by
    cases es with
    | nil => rfl
    | cons event es =>
      rw [(hfail.leavesOpen trivial).marked (by simp)] at hstreamed
      cases hstreamed
  have hoptions : s₂.link.options = s.link.options := by rw [hgap.options, hfail.link]
  obtain ⟨es', fault, htries, hres⟩ := hrest
  rw [hoptions] at htries
  rw [hfail.link] at hauto
  refine ⟨es', fault, .again ⟨hfail.entries, hfaults⟩ hlost hfail.sends hauto hgap hback htries,
    hres.verdict, hres.killed, ?_, hres.options.trans hoptions, hres.states, hres.leavesOpen⟩
  rw [hres.settings, hgap.settings, hfail.settings]

theorem settled_of_restore {n : Nat}
    (hfail : Attempted sql q.params last (.error (.error e)) entries es s s₁)
    (hlost : e.losesConnection = true) (hstreamed : s₁.active.streamed = false)
    (hrun : (Link.restore p.logged >>= fun back =>
      if back then runWithRetries p.logged q sql last n else raise e) s₁ = (x, s'))
    (hx : x ≠ .error .hang) (hgap : s'.log = s₁.log ++ gap) (hcalm : Log.Calm (entries ++ gap))
    (hk : s.killed = false) (hopen : s.active.courier.terminal = none)
    (hnext : ∀ {s₂ rest}, runWithRetries p.logged q sql last n s₂ = (x, s') →
      s'.log = s₂.log ++ rest → Log.Calm rest → s₂.killed = false →
      s₂.active.courier.terminal = none → Settled p q sql last n rest x s₂ s') :
    Settled p q sql last (n + 1) (entries ++ gap) x s s' := by
  have hk₁ := (hfail.accounted hk hcalm.left).1
  rw [bind_apply] at hrun
  rcases hres : Link.restore p.logged s₁ with ⟨y, s₂⟩
  have hy : y ≠ .error .hang := by
    rintro rfl
    rw [hres] at hrun
    cases hrun
    exact hx rfl
  obtain ⟨gap₁, hconnects, hrestored⟩ := Link.restore_connects p hres hy
  rw [hres] at hrun
  -- the tries that follow the reconnects come after them in the log
  obtain ⟨rest, hrest⟩ : ∃ rest, s'.log = s₂.log ++ rest := by
    rcases y with stop | _ | _
    · cases hrun
      exact ⟨[], by simp⟩
    · cases hrun
      exact ⟨[], by simp⟩
    · exact exists_growth (sending_runWithRetries p q sql last n) hrun hx
  obtain rfl := Log.eq_append hgap hconnects.sends.log hrest
  obtain ⟨back, rfl, hback⟩ := hrestored hcalm.right.left
  cases back with
  | false =>
    cases hrun
    obtain rfl : rest = [] := by simpa using hrest
    rw [List.append_nil] at hcalm ⊢
    exact settled_of_failure hfail hconnects hcalm hk hopen
  | true =>
    obtain ⟨hauto, hconnected⟩ := hback rfl
    have hk₂ := hconnects.killed hk₁ hcalm.right.left
    have hopen₂ : s₂.active.courier.terminal = none := by
      rw [hconnects.active, (hfail.leavesOpen trivial).terminal, hopen]
    have hlater := hnext hrun hrest hcalm.right.right hk₂ hopen₂
    exact settled_of_retry hfail hlost hstreamed hconnects hauto hconnected hk hcalm.left hlater

theorem settled_of_success (hdone : Attempted sql q.params last (.ok ()) entries es s s₁)
    (hcalm : Log.Calm entries) (hk : s.killed = false)
    (hopen : s.active.courier.terminal = none) :
    Settled p q sql last retries entries (.ok ()) s s₁ := by
  obtain ⟨hk₁, hfaults⟩ := hdone.accounted hk hcalm
  have htries : Tries p.hooks.length s.link.options.autoReconnect sql q.params retries
      (entries ++ []) es none s s₁ :=
    .last ⟨hdone.entries, hfaults⟩ hdone.sends (.refl s₁)
  rw [List.append_nil] at htries
  refine ⟨es, none, htries, rfl, hk₁, hdone.settings, by rw [hdone.link], hdone.states,
    fun hor => ?_⟩
  rw [(hdone.leavesOpen (by simpa [LeavesOpen] using hor)).terminal, hopen]

end Failure

/-- A statement is tried as often as its lost connections, the retries and the reconnects allow. -/
theorem runWithRetries_settled (p : Parties ω) (q : Query) (sql : String) (last : Bool)
    (retries : Nat) (hrun : runWithRetries p.logged q sql last retries s = (x, s'))
    (hx : x ≠ .error .hang) (hlog : s'.log = s.log ++ new) (hcalm : Log.Calm new)
    (hk : s.killed = false) (hopen : s.active.courier.terminal = none) :
    Settled p q sql last retries new x s s' := by
  -- every retry starts from a later state and a later part of the log
  induction retries using Nat.strongRecOn generalizing s new with | ind retries ih =>
  obtain ⟨entries, es, hattempt⟩ := attemptStatement_attempted p q sql last s
  rw [runWithRetries_apply] at hrun
  rcases hr : attemptStatement p.logged q sql last s with ⟨(e | c | _) | _, s₁⟩ <;>
    rw [hr] at hattempt hrun <;> dsimp only at hattempt hrun
  · obtain ⟨gap, hgap⟩ := exists_growth (sending_afterFailure p q sql e last retries) hrun hx
    obtain rfl := Log.eq_append hlog hattempt.sends.log hgap
    have hstop : (.error (.error e), s₁) = (x, s') →
        Settled p q sql last retries (entries ++ gap) x s s' := by
      intro heq
      cases heq
      obtain rfl : gap = [] := by simpa using hgap
      exact settled_of_failure hattempt (.refl _) hcalm hk hopen
    rw [afterFailure_apply _ _ _ _ (hattempt.accounted hk hcalm.left).1] at hrun
    cases retries with
    | zero => exact hstop hrun
    | succ n =>
      dsimp only [retry] at hrun
      split at hrun
      · next hcond =>
        rw [Bool.and_eq_true, Bool.not_eq_true'] at hcond
        exact settled_of_restore hattempt hcond.1 hcond.2 hrun hx hgap hcalm hk hopen
          (ih n (by omega))
      · exact hstop hrun
  · cases hrun
    obtain rfl := List.append_cancel_left (hattempt.sends.log.symm.trans hlog)
    exact (hattempt.accounted hk hcalm).2.elim
  · cases hrun
    exact absurd rfl hx
  · cases hrun
    obtain rfl := List.append_cancel_left (hattempt.sends.log.symm.trans hlog)
    exact settled_of_success hattempt hcalm hk hopen

/-- What came of the statements of a query. -/
def Batched (p : Parties ω) (q : Query) (statements : List String) (new : Log)
    (x : Except Stop Unit) (s s' : Session (Log × ω)) : Prop :=
  ∃ es fault, Batch p.hooks.length s.link.options.autoReconnect s.settings.statementRetries q.params
    statements new es fault s s' ∧ Resolved true es fault x s s'

theorem runStatements_apply (p : Parties ω) (q : Query) (sql : String) (rest : List String)
    (s : Session ω) :
    runStatements p q (sql :: rest) s =
      (runWithRetries p q sql rest.isEmpty s.settings.statementRetries >>= fun _ =>
        runStatements p q rest) (restarted s) := rfl

theorem runStatements_batched (p : Parties ω) (q : Query) (sql : String) (rest : List String)
    (hrun : runStatements p.logged q (sql :: rest) s = (x, s')) (hx : x ≠ .error .hang)
    (hlog : s'.log = s.log ++ new) (hcalm : Log.Calm new) (hk : s.killed = false)
    (hopen : s.active.courier.terminal = none) : Batched p q (sql :: rest) new x s s' := by
  -- the last statement may close the task, each before it leaves it open for the next
  induction rest generalizing sql s new with
  | nil =>
    rw [runStatements_apply, bind_apply] at hrun
    rcases hr : runWithRetries p.logged q sql true s.settings.statementRetries (restarted s) with
      ⟨y, s₁⟩
    have hend : y = x ∧ s₁ = s' := by
      rw [List.isEmpty_nil, hr] at hrun
      rcases y with _ | _ <;> cases hrun <;> exact ⟨rfl, rfl⟩
    obtain ⟨rfl, rfl⟩ := hend
    obtain ⟨es, fault, htries, hres⟩ :=
      runWithRetries_settled p q sql true _ hr hx hlog hcalm hk hopen
    refine ⟨es, fault, ?_, hres.verdict, hres.killed, hres.settings, hres.options, hres.states,
      hres.leavesOpen⟩
    cases fault with
    | none => exact .only htries
    | some e => exact .failed htries
  | cons sql' rest ih =>
    rw [runStatements_apply, bind_apply] at hrun
    rcases hr : runWithRetries p.logged q sql false s.settings.statementRetries (restarted s) with
      ⟨stop | _, s₁⟩ <;> rw [List.isEmpty_cons, hr] at hrun
    · cases hrun
      obtain ⟨es, fault, htries, hres⟩ :=
        runWithRetries_settled p q sql false _ hr hx hlog hcalm hk hopen
      cases fault with
      | none => cases hres.verdict
      | some e =>
        exact ⟨es, some e, .failed htries, hres.verdict, hres.killed, hres.settings, hres.options,
          hres.states, fun _ => hres.leavesOpen (.inl rfl)⟩
    · obtain ⟨first, hfirst⟩ := exists_growth (sending_runWithRetries p q sql false _) hr (by simp)
      obtain ⟨later, hlater⟩ := exists_growth (sending_runStatements p q _) hrun hx
      obtain rfl := Log.eq_append hlog hfirst hlater
      obtain ⟨es, fault, htries, hres⟩ :=
        runWithRetries_settled p q sql false _ hr (by simp) hfirst hcalm.left hk hopen
      cases fault with
      | some e => cases hres.verdict
      | none =>
        obtain ⟨es', fault', hbatch, hres'⟩ :=
          ih sql' hrun hlater hcalm.right hres.killed (hres.leavesOpen (.inl rfl))
        rw [hres.options, hres.settings] at hbatch
        refine ⟨es ++ es', fault', .next htries hbatch, hres'.verdict, hres'.killed,
          hres'.settings.trans hres.settings, hres'.options.trans hres.options, ?_,
          hres'.leavesOpen⟩
        intro event hevent
        exact (List.mem_append.mp hevent).elim (hres.states event) (hres'.states event)

theorem Handed.ok {sink : Sink} {event : Event} (h : Task.Handed sink event new x s s')
    (hcalm : Log.Calm new) (hx : x ≠ .error .hang) : x = .ok () := by
  rcases x with (e | q | _) | _
  · exact absurd rfl (h.unfailing e)
  · exact absurd (h.blamed q rfl) (hcalm.panics _ q)
  · exact absurd rfl hx
  · rfl

theorem run_batched (p : Parties ω) (q : Query) (hrun : q.run p.logged s = (x, s'))
    (hx : x ≠ .error .hang) (hlog : s'.log = s.log ++ new) (hcalm : Log.Calm new)
    (hk : s.killed = false) (hopen : s.active.courier.terminal = none) :
    Batched p q q.statements new x s s' := by
  unfold run at hrun
  cases hq : q.statements with
  | nil =>
    rw [hq] at hrun
    obtain ⟨entries, y, s₁, hr, h⟩ := Task.emit_handed p .ok (some (Task.rowsTransferred 0))
      (some (.rows { executionTime := some (Binary64.ofInt 0), done := true })) none s hopen
    obtain ⟨rfl, rfl⟩ : y = x ∧ s₁ = s' := Prod.mk.inj (hr.symm.trans hrun)
    obtain rfl : entries = new := List.append_cancel_left (h.log.symm.trans hlog)
    refine ⟨_, none, .nothing rfl (h.sends hopen rfl) (Handed.followUp h), Handed.ok h hcalm hx,
      h.killed hcalm.kills hk, h.settings, by rw [h.link]; rfl, by simp, by simp⟩
  | cons sql rest =>
    rw [hq] at hrun
    exact runStatements_batched p q sql rest hrun hx hlog hcalm hk hopen

end Runs

/-- The run of a query that met neither a panic nor a kill: its first event, its statements with
their tries, and the error of the one that failed, if one did. -/
structure Retried (p : Parties ω) (q : Query) (fault : Option Error) (new : Log)
    (s s' : Session (Log × ω)) : Prop where
  course : ∃ start entries closing events s₁ s₂, new = start ++ (entries ++ closing) ∧
    Task.Sends start [Task.startEvent s.active.courier.requestId] s s₁ ∧
    Batch p.hooks.length s.link.options.autoReconnect s.settings.statementRetries q.params
      q.statements entries events fault s₁ s₂ ∧
    Task.Sends closing (fault.toList.map (Task.errorEvent s.active.courier.requestId)) s₂ s'
  executions : ∃ times : List Nat, times.length ≤ q.statements.length ∧
    (fault = none → times.length = q.statements.length) ∧
    (∀ n ∈ times, 1 ≤ n ∧ n ≤ s.settings.statementRetries + 1 ∧
      (s.link.options.autoReconnect = false → n = 1)) ∧
    Log.executions new =
      (q.statements.zip times).flatMap fun x => .replicate x.2 (x.1, q.params)
  terminal : s'.active.courier.terminal = some (if fault.isSome then .error else .ok)

section Execute

variable {new : Log} {x : Except Stop Unit} {s s' : Session (Log × ω)}

theorem clockOff_sends (p : Parties ω) (started : Nat) (s : Session (Log × ω)) :
    ∃ s', Task.clockOff p.logged started s = (.ok (), s') ∧ Task.Sends [] [] s s' ∧
      s'.active.courier = s.active.courier :=
  ⟨_, rfl, .silent (by simp [Session.log]) rfl rfl rfl (by simp [Log.taken]), rfl⟩

theorem terminal_of_closed {es : List Event} (hsends : Task.Sends new es s s')
    (hopen : s.active.courier.terminal = none) (hclosed : Task.Closed s')
    (hstates : ∀ e ∈ es, e.state = .pending ∨ e.state = .ok) :
    s'.active.courier.terminal = some .ok := by
  obtain ⟨init, closing, rfl, -, hterm, hlast⟩ := hsends.states.exists_closing hopen hclosed
  rcases hstates closing (by simp) with h | h
  · simp [h, Progress.isTerminal] at hlast
  · rw [hterm, h]

theorem endInError_handed (p : Parties ω) (e : Error) (hopen : s.active.courier.terminal = none) :
    ∃ new x s', Task.endInError p.logged e s = (x, s') ∧
      Task.Sends new [Task.errorEvent s.active.courier.requestId e] s s' ∧
      Log.executions new = [] ∧ s'.active.courier.terminal = some .error ∧
      (Log.Calm new → x ≠ .error .hang → x = .ok ()) := by
  obtain ⟨new, x, s', hemit, h⟩ := Task.emit_handed p .error
    (some (ErrorReport.ofError e).message) none (some (.ofError e)) (Task.noteError s e) hopen
  exact ⟨new, x, s', (Task.endInError_open p.logged e s hopen).trans hemit,
    (Task.noteError_sends s e).append (h.sends hopen rfl), executions_followUp (Handed.followUp h),
    by rw [h.active]; rfl, Handed.ok h⟩

theorem conclude_batched (p : Parties ω) (q : Query) (started : Nat)
    (hrun : Task.conclude p.logged started (q.run p.logged) (fun _ => pure ()) s = (x, s'))
    (hx : x ≠ .error .hang) (hlog : s'.log = s.log ++ new) (hcalm : Log.Calm new)
    (hk : s.killed = false) (hopen : s.active.courier.terminal = none) :
    x = .ok () ∧ ∃ fault entries closing events s₁, new = entries ++ closing ∧
      Batch p.hooks.length s.link.options.autoReconnect s.settings.statementRetries q.params
        q.statements entries events fault s s₁ ∧
      Task.Sends closing (fault.toList.map (Task.errorEvent s.active.courier.requestId)) s₁ s' ∧
      Log.executions closing = [] ∧
      s'.active.courier.terminal = some (if fault.isSome then .error else .ok) := by
  have hc := Task.sending_covers (fun _ => True) p fun _ _ => trivial
  rw [Task.conclude, bind_apply, attempt] at hrun
  rcases hr : q.run p.logged s with ⟨y, s₁⟩
  have hy : y ≠ .error .hang := by
    rintro rfl
    rw [hr] at hrun
    cases hrun
    exact hx rfl
  obtain ⟨entries, hentries⟩ := exists_growth (follows_run hc q (sending_readSets p q)) hr hy
  obtain ⟨s₂, hclock, hsilent, hcourier⟩ := clockOff_sends p started s₁
  rw [hr] at hrun
  obtain ⟨closing, hclosing⟩ : ∃ closing, s'.log = s₁.log ++ closing := by
    have hclockOff := Task.follows_clockOff hc.toReading started
    rcases y with (e | c | _) | _
    · exact exists_growth (follows_bind hclockOff fun _ => hc.endsInError e) hrun hx
    · cases hrun
      exact ⟨[], by simp⟩
    · exact absurd rfl hy
    · exact exists_growth (follows_bind hclockOff fun _ => follows_pure ()) hrun hx
  obtain rfl := Log.eq_append hlog hentries hclosing
  obtain ⟨es, fault, hbatch, hres⟩ := run_batched p q hr hy hentries hcalm.left hk hopen
  -- without a fault the batch has sent the closing event itself
  cases fault with
  | none =>
    obtain rfl := hres.verdict
    obtain ⟨rfl, rfl⟩ : Except.ok () = x ∧ s₂ = s' :=
      Prod.mk.inj ((bind_of_ok hclock fun _ => pure ()).symm.trans hrun)
    obtain rfl : closing = [] := List.append_cancel_left (hclosing.symm.trans hsilent.log)
    refine ⟨rfl, none, entries, [], es, s₁, rfl, hbatch, hsilent, rfl, ?_⟩
    rw [hcourier]
    exact terminal_of_closed hbatch.sends hopen (leaves_run p q s () s₁ hr) hres.states
  | some e =>
    obtain rfl := hres.verdict
    have hopen₂ : s₂.active.courier.terminal = none := by
      rw [hcourier]
      exact hres.leavesOpen (.inr (by simp))
    obtain ⟨more, z, s₃, hend, hsent, hnone, hterm, hok⟩ := endInError_handed p e hopen₂
    obtain ⟨rfl, rfl⟩ : z = x ∧ s₃ = s' :=
      Prod.mk.inj (hend.symm.trans
        ((bind_of_ok hclock fun _ => Task.endInError p.logged e).symm.trans hrun))
    have hsends := hsilent.append hsent
    obtain rfl : closing = more := List.append_cancel_left (hclosing.symm.trans hsends.log)
    rw [hsilent.requestId.trans hbatch.sends.requestId] at hsends
    exact ⟨hok hcalm.right hx, some e, entries, closing, es, s₁, rfl, hbatch, hsends, hnone, hterm⟩

theorem execute_query (p : Parties ω) {q : Query} {s : Session ω}
    (hwork : s.active.work = .query q) : Task.execute p s = (do
      Task.emit p .pending (some Task.startedMessage) none none
      Task.conclude p (p.clock s.outside) (q.run p) fun _ => pure ()) s := by
  rw [Task.execute_builtIn p s (by rw [hwork]; rfl), now_bind_apply, hwork]
  rfl

/-- A query that meets neither a panic nor a kill tries its statements one after the other, with as
many retries as lost connections, reconnects and settings allow, and ends by the fault of the last
try of all, unless somebody never comes back to it. -/
theorem execute_retries (p : Parties ω) (q : Query) (hwork : s.active.work = .query q)
    (hk : s.killed = false) (hopen : s.active.courier.terminal = none) :
    ∃ new, (Task.execute p.logged s).2.log = s.log ++ new ∧ (Log.Calm new →
      (Task.execute p.logged s).1 = .error .hang ∧ Log.Stuck p.patience p.patience new ∨
      (Task.execute p.logged s).1 = .ok () ∧
        ∃ fault, Retried p q fault new s (Task.execute p.logged s).2) := by
  have hc := Task.sending_covers (fun _ => True) p fun _ _ => trivial
  have hwait := follows_bind (Task.awaiting_emit p p.patience p.patience .pending
    (some Task.startedMessage) none none) (fun _ =>
      Task.follows_conclude (Task.awaiting_covers p _ _) (p.logged.clock s.outside)
        (awaiting_run p q) fun _ => follows_pure ()) s
  rw [← execute_query p.logged hwork] at hwait
  rcases hrun : Task.execute p.logged s with ⟨x, s'⟩
  rw [hrun] at hwait
  -- if it does not come back, the log tells for whom it waits
  by_cases hx : x = .error .hang
  · subst hx
    obtain ⟨new, hlog, hstuck⟩ := hwait
    exact ⟨new, hlog, fun _ => .inl ⟨rfl, hstuck⟩⟩
  obtain ⟨new, hlog, -⟩ := hwait.goes hx
  refine ⟨new, hlog, fun hcalm => .inr ?_⟩
  dsimp only at hlog ⊢
  obtain ⟨start, y, s₁, hemit, h⟩ :=
    Task.emit_handed p .pending (some Task.startedMessage) none none s hopen
  rw [execute_query p.logged hwork, bind_apply, hemit] at hrun
  obtain ⟨rest, hrest⟩ : ∃ rest, s'.log = s₁.log ++ rest := by
    rcases y with stop | _
    · cases hrun
      exact ⟨[], by simp⟩
    · exact exists_growth (Task.follows_conclude hc _ (follows_run hc q (sending_readSets p q))
        fun _ => follows_pure ()) hrun hx
  have hstart := h.sends hopen rfl
  obtain rfl := Log.eq_append hlog hstart.log hrest
  obtain rfl : y = .ok () := Handed.ok h hcalm.left (by
    rintro rfl
    cases hrun
    exact hx rfl)
  have hlink : s₁.link = s.link := h.link
  have hsettings : s₁.settings = s.settings := h.settings
  obtain ⟨rfl, fault, entries, closing, events, s₂, rfl, hbatch, hclosing, hnone, hterm⟩ :=
    conclude_batched p q _ hrun hx hrest hcalm.right (h.killed hcalm.left.kills hk)
      (by rw [h.active]; rfl)
  rw [hlink, hsettings] at hbatch
  rw [hstart.requestId] at hclosing
  refine ⟨rfl, fault, ⟨start, entries, closing, events, s₁, s₂, rfl, hstart, hbatch, hclosing⟩, ?_,
    hterm⟩
  rw [Log.executions_append, Log.executions_append, executions_followUp (Handed.followUp h), hnone,
    List.nil_append, List.append_nil]
  exact hbatch.executions

end Execute

open Rehearsal in
/-- A backend that is not connected yet, and does not take the second statement. -/
def unready : Cast where
  backend := { statements := [{ sql := "SELECT 2", fate := .error .timeout }] }
  hooks := [{ name := some "setup" }]

def selects : Query := { statements := ["SELECT 1", "SELECT 2", "SELECT 3"] }

def waiting : Session (Log × Rehearsal.Scene) :=
  { Session.create "s1" "Mock" { autoReconnect := true } {} ([], unready.scene {} []) with
    active := { work := .query selects } }

/-- The first statement takes two tries, the second fails, the third is not reached. -/
theorem execute_retries_unready :
    ∃ fault, Retried unready.parties selects fault
        (Task.execute unready.parties.logged waiting).2.log waiting
        (Task.execute unready.parties.logged waiting).2 ∧
      (Log.executions (Task.execute unready.parties.logged waiting).2.log).map Prod.fst =
        ["SELECT 1", "SELECT 1", "SELECT 2"] := by
  have hcalm : Log.Calm (Task.execute unready.parties.logged waiting).2.log := by decide +kernel
  have hreturns : (Task.execute unready.parties.logged waiting).1.isOk = true := by decide +kernel
  obtain ⟨new, hlog, h⟩ :=
    execute_retries (s := waiting) unready.parties selects rfl rfl rfl
  obtain rfl : (Task.execute unready.parties.logged waiting).2.log = new := hlog
  rcases h hcalm with ⟨hx, -⟩ | ⟨-, fault, hfault⟩
  · rw [hx] at hreturns
    cases hreturns
  · exact ⟨fault, hfault, by decide +kernel⟩

end DatabaseSession.Query
