import DatabaseSession.Proofs.Exhaustion
import DatabaseSession.Proofs.Killing

namespace DatabaseSession

open Course Run Session

variable {ω α β : Type} {p : Parties ω} {q : Query} {s s' : Session (Log × ω)}

/-- The course on which the active task stays as open as it is. -/
def Course.unclosing (ω : Type) : Course (Log × ω) :=
  .ofGrowth (fun s s' => s'.active.courier.terminal = s.active.courier.terminal) (fun _ => rfl)
    fun h h' => h'.trans h

theorem Course.unclosing_permits (p : Parties ω) (d : Duty) : (unclosing ω).Permits p d := by
  refine permits_of fun {x new s s'} ht => ?_
  have h : s'.active.courier.terminal = s.active.courier.terminal := by rw [ht.active]
  exact allows_of_panics h h

/-- What follows on something that cannot close the task, if the task is closed in the end. -/
theorem Run.open_or_exists {m : Run (Log × ω) α} {f : α → Run (Log × ω) β} {x : Except Stop β}
    (hm : Follows (unclosing ω) m) (hrun : (m >>= f) s = (x, s'))
    (hopen : s.active.courier.terminal = none) :
    s'.active.courier.terminal = none ∨
      ∃ a s₁, m s = (.ok a, s₁) ∧ f a s₁ = (x, s') ∧ s₁.active.courier.terminal = none := by
  have h := hm s
  rw [bind_apply] at hrun
  rcases hms : m s with ⟨(_ | _ | _) | a, s₁⟩ <;> rw [hms] at hrun h
  case ok => exact .inr ⟨a, s₁, rfl, hrun, h.trans hopen⟩
  all_goals
    cases hrun
    exact .inl (h.trans hopen)

namespace Query

theorem unclosing_stream (p : Parties ω) (chunk : Chunk) :
    Follows (unclosing ω) (Task.stream p.logged chunk) := by
  intro s
  rw [Task.stream_apply]
  cases hterm : s.active.courier.terminal with
  | some st =>
    rw [Task.emit_closed _ _ _ _ _ (Task.markStreamed s) (by simp [Task.markStreamed, hterm])]
    rfl
  | none =>
    obtain ⟨new, x, s', hr, h⟩ :=
      Task.emit_handed p .pending none (some (.rows chunk)) none (Task.markStreamed s) hterm
    have hstays : s'.active.courier.terminal = s.active.courier.terminal := by
      rw [h.active, hterm]
      rfl
    rw [hr]
    exact allows_of_panics hstays hstays

theorem unclosing_fetches (p : Parties ω) : Fetches (unclosing ω) p where
  reading d _ := unclosing_permits p d
  streams := unclosing_stream p
  updates _ _ ht := congrArg Courier.terminal ht.courier

def Counted (st : StatementStats) (s : Session ω) : Prop :=
  s.active.stats.rowsAffected = st.rowsAffected ∧ s.active.stats.lastInsertId = st.lastInsertId

/-- Reading the result sets from here to the last one, this is what the backend counts for the
last one. -/
inductive LastCount (p : Parties ω) (q : Query) (sql : String) (started : Nat) :
    Session ω → StatementStats → Prop where
  | here {columns : List Column} {r : Reading} {st : StatementStats} {s s₁ s₂ s₃ s₄ : Session ω}
      (hcolumns : valueOr [] (party p p.backend.columns) s = (.ok columns, s₁))
      (hrows : readRows p q sql columns p.patience {} s₁ = (.ok r, s₂))
      (hstats : valueOr {} (party p p.backend.stats) s₂ = (.ok st, s₃))
      (hend : party p p.backend.nextResult { s₃ with active := s₃.active.count st } =
        (.ok false, s₄)) :
      LastCount p q sql started s st
  | later {st : StatementStats} {s s₁ : Session ω}
      (hset : readSet p q sql true started s = (.ok true, s₁))
      (h : LastCount p q sql started s₁ st) : LastCount p q sql started s st

/-- Reading from here the last result set was read to its end, and that has ended the task well. -/
structure EndsReading (p : Parties ω) (q : Query) (sql : String) (started : Nat)
    (s s' : Session (Log × ω)) : Prop where
  counts : ∃ st, LastCount p.logged q sql started s st ∧ Counted st s'
  exhausts : ∃ a, s.log <+: a.log ∧ Exhausted p a s'
  terminal : s'.active.courier.terminal = some .ok

/-- A result set closes the task only if it is the last one of the last statement. -/
theorem readSet_closes {sql : String} {last : Bool} {started : Nat} {x : Except Stop Bool}
    (hrun : readSet p.logged q sql last started s = (x, s'))
    (hopen : s.active.courier.terminal = none) :
    s'.active.courier.terminal = none ∨
      last = true ∧ EndsReading p q sql started s s' ∧ x ≠ .ok true ∧
        ∀ e, x ≠ .error (.error e) := by
  have hf := unclosing_fetches p
  simp only [readSet, takeSet, endSet, bind_assoc, pure_bind] at hrun
  obtain hstays | ⟨columns, s₁, hcolumns, hrun, hopen₁⟩ :=
    open_or_exists (follows_valueOr [] (hf.reading .columns rfl _)) hrun hopen
  · exact .inl hstays
  obtain hstays | ⟨r, s₂, hrows, hrun, hopen₂⟩ :=
    open_or_exists (follows_readRows hf (fun _ => rfl) q sql columns _ {}) hrun hopen₁
  · exact .inl hstays
  obtain hstays | ⟨st, s₃, hstats, hrun, hopen₃⟩ :=
    open_or_exists (follows_valueOr ({} : StatementStats) (hf.reading .stats rfl _)) hrun hopen₂
  · exact .inl hstays
  change (party p.logged p.logged.backend.nextResult >>= _)
    { s₃ with active := s₃.active.count st } = _ at hrun
  obtain hstays | ⟨more, s₄, hmore, hrun, hopen₄⟩ :=
    open_or_exists (hf.reading .nextResult rfl _) hrun hopen₃
  · exact .inl hstays
  rw [now_bind_apply, closeSet] at hrun
  cases hfinal : last && !more with
  | false =>
    -- rows that are sent on leave the task open
    simp only [hfinal, Bool.false_eq_true, if_false] at hrun
    split at hrun
    · obtain hstays | ⟨_, _, _, hrun, hopen₅⟩ :=
        open_or_exists (unclosing_stream p _) hrun hopen₄
      · exact .inl hstays
      · cases hrun
        exact .inl hopen₅
    · cases hrun
      exact .inl hopen₄
  | true =>
    rw [Bool.and_eq_true, Bool.not_eq_true'] at hfinal
    obtain ⟨hlast, rfl⟩ := hfinal
    have hactive : s₄.active = s₃.active.count st :=
      (sameActive_permits p .nextResult _).goes hmore (by simp)
    simp only [hlast, Bool.not_false, Bool.and_true, if_true, endWell] at hrun
    rw [bind_apply] at hrun
    obtain ⟨new, y, s₅, hemit, h⟩ := Task.emit_handed p .ok _ _ none s₄ hopen₄
    rw [hemit] at hrun
    have hcounted : Counted st s₅ := by
      rw [Counted, h.active]
      change s₄.active.stats.rowsAffected = _ ∧ s₄.active.stats.lastInsertId = _
      rw [hactive]
      exact ⟨rfl, rfl⟩
    obtain ⟨a, ha, hnone⟩ := readRows_drains hrows
    have hbegun := making_extends
      ((follows_valueOr [] (calmly_permits p (d := .columns) rfl _)).grown id hcolumns)
    have hquiet : (calmly ω).Goes s₂ { s₃ with active := s₃.active.count st } := (calmly ω).trans
      ((follows_valueOr ({} : StatementStats) (calmly_permits p (d := .stats) rfl _)).grown id
        hstats) (making_same rfl)
    have hends : EndsReading p q sql started s s₅ :=
      ⟨⟨st, .here hcolumns hrows hstats hmore, hcounted⟩, ⟨a, hbegun.trans ha,
        .intro hnone hquiet hmore ((calmly_emit p _ _ _ _).grown id hemit)⟩, by rw [h.active]; rfl⟩
    refine .inr ⟨hlast, ?_⟩
    rcases y with (e | _ | _) | _
    · exact absurd rfl (h.unfailing e)
    all_goals
      cases hrun
      exact ⟨hends, by simp, by simp⟩

theorem readSets_closes {sql : String} {last : Bool} {started patience : Nat} {x : Except Stop Unit}
    (hrun : readSets p.logged q sql last started patience s = (x, s'))
    (hopen : s.active.courier.terminal = none) :
    s'.active.courier.terminal = none ∨
      last = true ∧ EndsReading p q sql started s s' ∧ ∀ e, x ≠ .error (.error e) := by
  induction patience generalizing s with
  | zero =>
    cases hrun
    exact .inl hopen
  | succ patience ih =>
    rw [readSets, bind_apply] at hrun
    rcases hset : readSet p.logged q sql last started s with ⟨stop | more, s₁⟩ <;>
      rw [hset] at hrun <;> have hfirst := readSet_closes hset hopen
    · cases hrun
      rcases hfirst with hopen₁ | ⟨hlast, hends, -, hstop⟩
      · exact .inl hopen₁
      · exact .inr ⟨hlast, hends, fun e he => hstop e (by simpa using he)⟩
    cases more with
    | false =>
      cases hrun
      rcases hfirst with hopen₁ | ⟨hlast, hends, -⟩
      · exact .inl hopen₁
      · exact .inr ⟨hlast, hends, by simp⟩
    | true =>
      obtain hopen₁ | ⟨-, -, hmore, -⟩ := hfirst
      · rcases ih hrun hopen₁ with hopen₂ | ⟨rfl, hends, hstop⟩
        · exact .inl hopen₂
        obtain ⟨st, hcount, hcounted⟩ := hends.counts
        obtain ⟨a, ha, hexhausted⟩ := hends.exhausts
        obtain ⟨new, hlog, -⟩ := (switching_readSet p q sql true started).goes hset (by simp)
        refine .inr ⟨rfl, ⟨⟨st, .later hset hcount, hcounted⟩, ⟨a, ?_, hexhausted⟩,
          hends.terminal⟩, hstop⟩
        exact List.IsPrefix.trans ⟨new, hlog.symm⟩ ha
      · exact absurd rfl hmore

/-- The statement was the last one to be executed, and the task has taken down what the backend
counted for its last result set. -/
inductive Concludes (p : Parties ω) (q : Query) (sql : String) (st : StatementStats)
    (s s' : Session (Log × ω)) : Prop where
  | intro {started : Nat} {s₀ s₁ : Session (Log × ω)} {before after : Log}
      (hbefore : s₀.log = s.log ++ before)
      (hexecute : party p.logged (p.logged.backend.execute sql q.params) s₀ = (.ok (), s₁))
      (hcount : LastCount p.logged q sql started s₁ st) (hafter : s'.log = s₁.log ++ after)
      (hlast : Log.executions after = []) (hcounted : Counted st s')

namespace Concludes

variable {sql : String} {st : StatementStats} {t : Session (Log × ω)} {new : Log}

theorem counted (h : Concludes p q sql st s s') : Counted st s' := by
  cases h
  assumption

theorem from_earlier (h : Concludes p q sql st s s') (hlog : s.log = t.log ++ new) :
    Concludes p q sql st t s' := by
  obtain ⟨hbefore, hexecute, hcount, hafter, hlast, hcounted⟩ := h
  rw [hlog, List.append_assoc] at hbefore
  exact .intro hbefore hexecute hcount hafter hlast hcounted

theorem to_later (h : Concludes p q sql st s s') (hlog : t.log = s'.log ++ new)
    (hnone : Log.executions new = [])
    (hrows : t.active.stats.rowsAffected = s'.active.stats.rowsAffected)
    (hid : t.active.stats.lastInsertId = s'.active.stats.lastInsertId) :
    Concludes p q sql st s t := by
  obtain ⟨hbefore, hexecute, hcount, hafter, hlast, hcounted⟩ := h
  rw [hafter, List.append_assoc] at hlog
  exact .intro hbefore hexecute hcount hlog (by rw [Log.executions_append, hlast, hnone]; rfl)
    ⟨hrows.trans hcounted.1, hid.trans hcounted.2⟩

end Concludes

/-- The statement was brought to its end, and the task has ended well with it. -/
structure Completes (p : Parties ω) (q : Query) (sql : String) (s s' : Session (Log × ω)) :
    Prop where
  concludes : ∃ st, Concludes p q sql st s s'
  readOut : ∃ a, ReadOut p q sql a s'
  terminal : s'.active.courier.terminal = some .ok

theorem Completes.from_earlier {sql : String} {t : Session (Log × ω)} {new : Log}
    (h : Completes p q sql s s') (hlog : s.log = t.log ++ new) : Completes p q sql t s' := by
  obtain ⟨st, hconcludes⟩ := h.concludes
  exact ⟨⟨st, hconcludes.from_earlier hlog⟩, h.readOut, h.terminal⟩

/-- If the move closes the task, then it is for a query's last statement, which it brings to its
end. -/
def ClosesLast (p : Parties ω) (q : Query) (sql : String) (last : Bool)
    (m : Run (Log × ω) Unit) : Prop :=
  ∀ ⦃s x s'⦄, m s = (x, s') → s.active.courier.terminal = none →
    s'.active.courier.terminal = none ∨
      last = true ∧ Completes p q sql s s' ∧ ∀ e, x ≠ .error (.error e)

theorem closesLast_attemptStatement (sql : String) (last : Bool) :
    ClosesLast p q sql last (attemptStatement p.logged q sql last) := by
  intro s x s' hrun hopen
  rw [attemptStatement, now_bind_apply] at hrun
  obtain hstays | ⟨⟨⟩, s₁, hexecute, hrun, hopen₁⟩ :=
    open_or_exists (unclosing_permits p (.execute sql q.params) _) hrun hopen
  · exact .inl hstays
  have hreads := keeps_readSets (p := p) q sql last (p.logged.clock s.outside) p.logged.patience s₁
  rw [hrun] at hreads
  obtain ⟨after, _, hsends, hcalls, -⟩ := hreads
  refine (readSets_closes hrun hopen₁).imp_right ?_
  rintro ⟨hlast, hends, hstop⟩
  obtain ⟨st, hcount, hcounted⟩ := hends.counts
  obtain ⟨a, ha, hexhausted⟩ := hends.exhausts
  refine ⟨hlast, ⟨⟨st, .intro (List.append_nil _).symm hexecute hcount hsends.sends.log
    (executions_followUp hcalls) hcounted⟩, ⟨a, hexhausted, ?_⟩, hends.terminal⟩, hstop⟩
  obtain ⟨new, hturned⟩ := exists_turned hexecute
  obtain ⟨asides, hside, rfl | ⟨hhang, -⟩⟩ := hturned.entries
  · refine ⟨s.log, asides ++ [.returned (.execute sql q.params) (.ok ())] ++ after, ?_, ?_, ?_⟩
    · rw [hsends.sends.log, hturned.log]
      simp [Except.map]
    · refine Nat.lt_of_lt_of_le ?_ ha.length_le
      rw [hturned.log]
      simp
    · intro d hd
      have hfollow : d ∈ Log.calls after := by simpa [Log.calls_asides hside] using hd
      exact Duty.isExecute_of_isFollowUp (hcalls d hfollow)
  · cases hhang

theorem closesLast_afterFailure {sql : String} {e : Error} {last : Bool}
    {again : Option (Run (Log × ω) Unit)} (hagain : ∀ m ∈ again, ClosesLast p q sql last m) :
    ClosesLast p q sql last (afterFailure p.logged sql e again) := by
  intro s x s' hrun hopen
  cases afterFailure_cases hrun with
  | replaced | passed => exact .inl hopen
  | abandoned _ hback => exact .inl (by rw [(sameActive_restore p).grown id hback, hopen])
  | retried hm _ hback hrun =>
    have hopen₁ := congrArg (·.courier.terminal) ((sameActive_restore p).grown id hback)
    obtain ⟨gap, hgap, -⟩ := Link.restore_connects p hback (by simp)
    exact (hagain _ hm hrun (hopen₁.trans hopen)).imp_right fun ⟨hlast, hcompletes, hstop⟩ =>
      ⟨hlast, hcompletes.from_earlier hgap.sends.log, hstop⟩

theorem closesLast_of_retry {sql : String} {last : Bool} {retries : Nat}
    (hagain : ∀ m ∈ retry p.logged q sql last retries, ClosesLast p q sql last m) :
    ClosesLast p q sql last (runWithRetries p.logged q sql last retries) := by
  intro s x s' hrun hopen
  rw [runWithRetries_apply] at hrun
  rcases hfirst : attemptStatement p.logged q sql last s with ⟨(e | c | _) | _, s₁⟩ <;>
    rw [hfirst] at hrun <;> have htried := closesLast_attemptStatement sql last hfirst hopen
  · obtain hopen₁ | ⟨-, -, hstop⟩ := htried
    · obtain ⟨new, _, hattempt⟩ := attemptStatement_attempted p q sql last s
      rw [hfirst] at hattempt
      exact (closesLast_afterFailure hagain hrun hopen₁).imp_right
        fun ⟨hlast, hcompletes, hstop⟩ =>
          ⟨hlast, hcompletes.from_earlier hattempt.sends.log, hstop⟩
    · exact absurd rfl (hstop e)
  all_goals
    cases hrun
    exact htried

theorem closesLast_runWithRetries (sql : String) (last : Bool) (retries : Nat) :
    ClosesLast p q sql last (runWithRetries p.logged q sql last retries) := by
  induction retries with
  | zero => exact closesLast_of_retry fun m hm => by cases hm
  | succ retries ih =>
    refine closesLast_of_retry fun m hm => ?_
    cases hm
    exact ih

/-- A query that closes its task has brought its last statement to its end. -/
theorem runStatements_closes {statements : List String} {x : Except Stop Unit}
    (hrun : runStatements p.logged q statements s = (x, s'))
    (hopen : s.active.courier.terminal = none) :
    s'.active.courier.terminal = none ∨
      (∃ sql, statements.getLast? = some sql ∧ Completes p q sql s s') ∧
        ∀ e, x ≠ .error (.error e) := by
  induction statements generalizing s with
  | nil =>
    cases hrun
    exact .inl hopen
  | cons sql rest ih =>
    rw [runStatements_apply, bind_apply] at hrun
    rcases hfirst : runWithRetries p.logged q sql rest.isEmpty s.settings.statementRetries
      (restarted s) with ⟨stop | _, s₁⟩ <;> rw [hfirst] at hrun <;>
      have hclosed := closesLast_runWithRetries sql rest.isEmpty _ hfirst hopen
    · cases hrun
      refine hclosed.imp_right fun ⟨hlast, hcompletes, hstop⟩ => ⟨⟨sql, ?_, ?_⟩, hstop⟩
      · rw [List.isEmpty_iff.mp hlast]
        rfl
      · exact hcompletes.from_earlier (List.append_nil _).symm
    · cases rest with
      | nil =>
        cases hrun
        refine hclosed.imp_right fun ⟨_, hcompletes, hstop⟩ => ⟨⟨sql, rfl, ?_⟩, hstop⟩
        exact hcompletes.from_earlier (List.append_nil _).symm
      | cons sql' rest =>
        -- only the last statement closes the task
        obtain hopen₁ | ⟨hlast, -⟩ := hclosed
        · obtain ⟨new, hlog⟩ := exists_growth (sending_runWithRetries p q sql _ _) hfirst (by simp)
          replace hlog : s₁.log = s.log ++ new := hlog
          refine (ih hrun hopen₁).imp_right fun ⟨⟨last, hlast, hcompletes⟩, hstop⟩ =>
            ⟨⟨last, ?_, hcompletes.from_earlier hlog⟩, hstop⟩
          rw [List.getLast?_cons_cons]
          exact hlast
        · cases hlast

end Query

namespace Task

theorem eq_of_endInError_ok {e : Error} {x : Except Stop Unit}
    (hrun : endInError p.logged e s = (x, s')) (hok : s'.active.courier.terminal = some .ok) :
    s' = s := by
  cases hterm : s.active.courier.terminal with
  | some st =>
    rw [endInError_closed _ e s (by simp [hterm])] at hrun
    cases hrun
    rfl
  | none =>
    obtain ⟨_, y, s₁, hend, -, -, herror, -⟩ := endInError_sends p e s hterm
    rw [hend] at hrun
    cases hrun
    rw [herror] at hok
    cases hok

theorem conclude_concludes {started : Nat} {x : Except Stop Unit} (hq : q.statements ≠ [])
    (hrun : conclude p.logged started (q.run p.logged) (fun _ => pure ()) s = (x, s'))
    (hopen : s.active.courier.terminal = none) (hok : s'.active.courier.terminal = some .ok) :
    ∃ sql st, q.statements.getLast? = some sql ∧ Query.Concludes p q sql st s s' := by
  rw [conclude, bind_apply, attempt, Query.run, if_neg (by simpa using hq)] at hrun
  rcases hquery : Query.runStatements p.logged q q.statements s with ⟨(e | c | _) | _, s₁⟩ <;>
    rw [hquery] at hrun <;> have hclosed := Query.runStatements_closes hquery hopen
  · -- an error leaves the task open, and so it ends in that error
    obtain ⟨s₂, hclock, -, hcourier⟩ := Query.clockOff_sends p started s₁
    dsimp only at hrun
    rw [bind_of_ok hclock] at hrun
    obtain rfl := eq_of_endInError_ok hrun hok
    rw [hcourier] at hok
    obtain hopen₁ | ⟨-, hstop⟩ := hclosed
    · rw [hopen₁] at hok
      cases hok
    · exact absurd rfl (hstop e)
  all_goals
    cases hrun
    obtain hopen₁ | ⟨hcompletes, -⟩ := hclosed
    · have hnone : (none : Option Progress) = some .ok := hopen₁.symm.trans hok
      cases hnone
    · obtain ⟨sql, hlast, hcompletes⟩ := hcompletes
      obtain ⟨st, hconcludes⟩ := hcompletes.concludes
      exact ⟨sql, st, hlast, hconcludes.to_later (List.append_nil _).symm rfl rfl rfl⟩

theorem execute_concludes {x : Except Stop Unit} (hwork : s.active.work = .query q)
    (hq : q.statements ≠ []) (hrun : execute p.logged s = (x, s'))
    (hopen : s.active.courier.terminal = none) (hok : s'.active.courier.terminal = some .ok) :
    ∃ sql st, q.statements.getLast? = some sql ∧ Query.Concludes p q sql st s s' := by
  obtain ⟨new, y, s₁, hemit, hsends, hopen₁, -⟩ :=
    emit_sends p .pending (some startedMessage) none none s hopen
  rw [Query.execute_query p.logged hwork, bind_apply, hemit] at hrun
  rcases y with stop | _
  · cases hrun
    rw [hopen₁] at hok
    cases hok
  · obtain ⟨sql, st, hlast, hconcludes⟩ := conclude_concludes hq hrun hopen₁ hok
    exact ⟨sql, st, hlast, hconcludes.from_earlier hsends.log⟩

theorem execute_work {x : Except Stop Unit} (hwork : s.active.work = .query q)
    (hrun : execute p.logged s = (x, s')) (hx : x ≠ .error .hang)
    (hopen : s.active.courier.terminal = none) : s'.active.work = .query q := by
  have hc := sending_covers (fun _ => True) p fun _ _ => trivial
  obtain ⟨_, y, s₁, hemit, hsends, -⟩ :=
    emit_sends p .pending (some startedMessage) none none s hopen
  rw [Query.execute_query p.logged hwork, bind_apply, hemit] at hrun
  rcases y with stop | _
  · cases hrun
    exact hsends.work.trans hwork
  · obtain ⟨_, _, hrest, -⟩ := (follows_conclude hc _
      (Query.follows_run hc q (Query.sending_readSets p q)) fun _ => follows_pure ()).goes hrun hx
    exact (hrest.work.trans hsends.work).trans hwork

theorem undertake_concludes {cancelled : Bool} {x : Except Stop Unit}
    (hwork : s.active.work = .query q) (hq : q.statements ≠ [])
    (hrun : undertake p.logged cancelled s = (x, s'))
    (hopen : s.active.courier.terminal = none) (hok : s'.active.courier.terminal = some .ok) :
    ∃ sql st, q.statements.getLast? = some sql ∧ Query.Concludes p q sql st s s' := by
  have hbuiltIn : s.active.work.isBuiltIn = true := by rw [hwork]; rfl
  rw [undertake_apply] at hrun
  cases cancelled with
  -- a task that is cancelled does not end well
  | true =>
    obtain ⟨_, y, s₁, hemit, hsends, hterm, -⟩ :=
      emit_sends p .cancelled none none none (reportCancelled s) hopen
    rw [if_pos rfl, cancel_builtIn _ s hbuiltIn, hemit] at hrun
    have hfirst : s' = s₁ := by
      rcases y with (_ | panic | _) | _
      case error.panic =>
        have hw : s₁.active.work.isBuiltIn = true := by rw [hsends.work]; exact hbuiltIn
        dsimp only at hrun
        rw [shielded_apply, fail_builtIn _ _ s₁ hw,
          endInError_closed _ _ s₁ (by simp [hterm, Progress.isTerminal])] at hrun
        cases hrun
        rfl
      all_goals
        cases hrun
        rfl
    rw [hfirst, hterm] at hok
    cases hok
  | false =>
    rw [if_neg (by simp)] at hrun
    rcases hexecute : execute p.logged s with ⟨(e | panic | _) | _, s₁⟩ <;> rw [hexecute] at hrun
    case error.panic =>
      have hw : s₁.active.work.isBuiltIn = true := by
        rw [execute_work hwork hexecute (by simp) hopen]
        rfl
      dsimp only at hrun
      rw [shielded_apply, fail_builtIn _ _ s₁ hw] at hrun
      rcases hend : endInError p.logged (panicError panic) s₁ with ⟨(_ | _ | _) | _, s₂⟩ <;>
        rw [hend] at hrun <;> cases hrun <;>
        · obtain rfl := eq_of_endInError_ok hend hok
          exact execute_concludes hwork hq hexecute hopen hok
    all_goals
      cases hrun
      exact execute_concludes hwork hq hexecute hopen hok

end Task
end DatabaseSession
