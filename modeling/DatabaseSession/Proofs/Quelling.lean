import DatabaseSession.Proofs.Kills
import DatabaseSession.Proofs.LastResult

namespace DatabaseSession

open Course Run Session

variable {ω α : Type} {κ : Log.Kill} {p : Parties ω} {s s' : Session (Log × ω)}

namespace Query

variable {q : Query} {sql : String} {last : Bool} {n : Nat}

theorem walks_fetchRow :
    κ.Walks (fun s => κ.Stilled n s ∧ ¬κ.Past s) (party p.logged p.logged.backend.fetchRow)
      fun _ => κ.Stilled n := by
  refine ⟨switching_permits p .fetchRow p.backend.fetchRow, fun {s x s'} hrun _ _ hs => ?_⟩
  obtain ⟨new, hturned⟩ := exists_turned (d := .fetchRow) (m := p.backend.fetchRow) hrun
  exact hs.1.turned hturned hs.2

theorem walks_readRows (columns : List Column) (patience : Nat) (r : Reading) :
    κ.Walks (κ.Stilled n) (readRows p.logged q sql columns patience r)
      fun _ => κ.Stilled n := by
  induction patience generalizing r with
  | zero =>
    refine ⟨switching_readRows p q sql columns 0 r, fun {s x s'} hrun _ _ hs => ?_⟩
    cases hrun
    exact hs
  | succ patience ih =>
    refine .unlessKilled (.bind walks_fetchRow (fun row => ?_) fun _ _ h => h) fun _ h => h
    cases row with
    | none => exact .calmly (follows_pure r) (follows_pure r)
    | some row =>
      refine .bind (.calmly ?_ ?_) (fun r' => ih r') fun _ _ h => h
      · exact follows_acceptRow (Task.switching_covers p).streams q columns r row
      · exact follows_acceptRow (Task.making_stream p fun _ _ => rfl) q columns r row

theorem walks_takeSet :
    κ.Walks (κ.Stilled n) (takeSet p.logged q sql) fun _ => κ.Stilled n := by
  have hend : Follows (calmly ω) (endSet p.logged) :=
    follows_bind (follows_valueOr _ (calmly_permits p rfl _)) fun _ =>
      follows_bind (follows_modify fun _ => making_same rfl) fun _ =>
      follows_bind (calmly_permits p (d := .nextResult) rfl _) fun _ => follows_pure _
  refine .bind (.calmly (follows_valueOr _ (switching_permits p .columns _))
    (follows_valueOr _ (calmly_permits p rfl _))) (fun columns => ?_) fun _ _ h => h
  refine .bind (walks_readRows columns _ _) (fun r => ?_) fun _ _ h => h
  exact .bind (.calmly (follows_endSet (Task.switching_covers p).toFetching) hend)
    (fun _ => .calmly (follows_pure _) (follows_pure _)) fun _ _ h => h

theorem walks_readSet (started : Nat) :
    κ.Walks (κ.Stilled n) (readSet p.logged q sql last started) fun _ => κ.Stilled n := by
  have hc := (Task.switching_covers p).toReading
  refine .bind walks_takeSet (fun (columns, r, stats, more) => .calmly ?_ ?_) fun _ _ h => h
  · exact follows_bind (follows_now _) fun _ =>
      follows_bind (follows_closeSet hc.streams (fun _ => hc.endsWell) q columns r stats _)
        fun _ => follows_pure more
  · exact follows_bind (follows_now _) fun _ =>
      follows_bind (follows_closeSet (Task.making_stream p fun _ _ => rfl)
        (fun _ message data => calmly_emit p .ok message data none) q columns r stats _)
        fun _ => follows_pure more

theorem walks_readSets (started patience : Nat) :
    κ.Walks (κ.Stilled n) (readSets p.logged q sql last started patience)
      fun _ => κ.Stilled n := by
  induction patience with
  | zero =>
    refine ⟨switching_readSets p q sql last started 0, fun {s x s'} hrun _ _ hs => ?_⟩
    cases hrun
    exact hs
  | succ patience ih =>
    refine .bind (walks_readSet started) (fun more => ?_) fun _ _ h => h
    cases more with
    | true => exact ih
    | false => exact .calmly (follows_pure ()) (follows_pure ())

theorem readRows_refuses (columns : List Column) (patience : Nat) (r : Reading) :
    κ.Walks κ.Past (readRows p.logged q sql columns patience r) fun x _ => ∀ r, x ≠ .ok r := by
  refine ⟨switching_readRows p q sql columns patience r, fun {s x s'} hrun _ hon hs => ?_⟩
  cases patience with
  | zero =>
    cases hrun
    simp
  | succ patience =>
    rw [readRows, get_bind_apply, if_pos (hon hs)] at hrun
    cases hrun
    simp

theorem walks_past {m : Run (Log × ω) α} (hm : Follows (switching ω) m) :
    κ.Walks κ.Past m fun _ => κ.Past := by
  refine ⟨hm, fun {s x s'} hrun _ _ hs => ?_⟩
  have h := hm s
  rw [hrun] at h
  exact hs.grows (Log.Kill.Walks.switching_extends h)

theorem takeSet_refuses :
    κ.Walks κ.Past (takeSet p.logged q sql) fun x _ => ∀ set, x ≠ .ok set := by
  have hend := follows_endSet (Task.switching_covers p).toFetching
  refine .bind (walks_past (follows_valueOr _ (switching_permits p .columns _)))
    (fun columns => ?_) fun _ _ _ => by simp
  refine .bind (readRows_refuses columns _ _) (fun r => ?_) fun _ _ _ => by simp
  exact ⟨follows_bind hend fun _ => follows_pure _, fun _ _ _ h => absurd rfl (h r)⟩

theorem readSet_refuses (started : Nat) :
    κ.Walks κ.Past (readSet p.logged q sql last started) fun x _ => ∀ more, x ≠ .ok more := by
  have hc := (Task.switching_covers p).toReading
  refine .bind takeSet_refuses (fun (columns, r, stats, more) => ⟨?_, fun _ _ _ h => ?_⟩)
    fun _ _ _ => by simp
  · exact follows_bind (follows_now _) fun _ =>
      follows_bind (follows_closeSet hc.streams (fun _ => hc.endsWell) q columns r stats _)
        fun _ => follows_pure more
  · exact absurd rfl (h (columns, r, stats, more))

theorem readSets_refuses (started patience : Nat) :
    κ.Walks κ.Past (readSets p.logged q sql last started patience) fun x _ => x ≠ .ok () := by
  cases patience with
  | zero =>
    refine ⟨switching_readSets p q sql last started 0, fun {s x s'} hrun _ _ _ => ?_⟩
    cases hrun
    simp
  | succ patience =>
    refine .bind (readSet_refuses started) (fun more => ⟨?_, fun _ _ _ h => absurd rfl (h more)⟩)
      fun _ _ _ => by simp
    cases more with
    | true => exact switching_readSets p q sql last started patience
    | false => exact follows_pure ()

theorem walks_now {A : Session (Log × ω) → Prop} : κ.Walks A (now p.logged) fun _ => A := by
  refine ⟨follows_now _, fun {s x s'} hrun _ _ hs => ?_⟩
  cases hrun
  exact hs

theorem attemptStatement_refuses :
    κ.Walks κ.Past (attemptStatement p.logged q sql last) fun x _ => x ≠ .ok () :=
  .bind walks_now (fun started => .bind
    (walks_past (switching_permits p (.execute sql q.params) (p.backend.execute sql q.params)))
    (fun _ => readSets_refuses started _) fun _ _ _ => by simp) fun _ _ _ => by simp

theorem walks_execute :
    κ.Walks (κ.Stilled n) (party p.logged (p.logged.backend.execute sql q.params))
      fun _ => κ.Stilled (n + 1) := by
  refine ⟨switching_permits p (.execute sql q.params) (p.backend.execute sql q.params),
    fun {s x s'} hrun _ _ hs => ?_⟩
  obtain ⟨new, hturned⟩ := exists_turned (d := .execute sql q.params) hrun
  exact hs.turned_succ hturned rfl rfl

theorem walks_execute_early :
    κ.Walks (fun s => ¬κ.Past s) (party p.logged (p.logged.backend.execute sql q.params))
      fun _ => κ.Stilled 0 := by
  refine ⟨switching_permits p (.execute sql q.params) (p.backend.execute sql q.params),
    fun {s x s'} hrun _ _ hs => ?_⟩
  obtain ⟨new, hturned⟩ := exists_turned (d := .execute sql q.params) hrun
  exact (Log.Kill.Stilled.of_not_past hs).turned hturned hs

/-- An attempt that succeeds was begun before the kill, so it does not count. -/
theorem walks_attemptStatement :
    κ.Walks (κ.Stilled 0) (attemptStatement p.logged q sql last)
      fun x s => κ.Stilled 1 s ∧ (x = .ok () → κ.Stilled 0 s) := by
  have hlate : κ.Walks (κ.Stilled 0) (attemptStatement p.logged q sql last)
      fun _ => κ.Stilled 1 :=
    .bind walks_now (fun started => .bind walks_execute (fun _ => walks_readSets started _)
      fun _ _ h => h) fun _ _ h => h.mono (Nat.zero_le 1)
  have hearly : κ.Walks (fun s => ¬κ.Past s) (attemptStatement p.logged q sql last)
      fun _ => κ.Stilled 0 :=
    .bind walks_now (fun started => .bind walks_execute_early (fun _ => walks_readSets started _)
      fun _ _ h => h) fun _ _ h => .of_not_past h
  refine ⟨hlate.switches, fun {s x s'} hrun hway hon hs => ?_⟩
  by_cases hpast : κ.Past s
  · exact ⟨hlate.walks hrun hway hon hs,
      fun hx => absurd hx (attemptStatement_refuses.walks hrun hway hon hpast)⟩
  · have hstill := hearly.walks hrun hway hon hpast
    exact ⟨hstill.mono (Nat.zero_le 1), fun _ => hstill⟩

end Query

namespace Log.Kill

/-- Of what stops a query after the kill, the log has something to tell: it was killed, or somebody
has come back with that. -/
inductive Tells (κ : Kill) : Stop → Prop where
  | killed (sql : Option String) : Tells κ (.error (.killed sql))
  | reported {d : Duty} {e : Error} (hd : d.isStatement = true)
      (h : .returned d (.error (.error e)) ∈ κ.later) : Tells κ (.error e)
  | panicked {d : Duty} {c : Panic} (h : .returned d (.error (.panic c)) ∈ κ.later) :
      Tells κ (.panic c)
  | stuck : Tells κ .hang

/-- What is left when statements are through with. -/
structure Spent (κ : Kill) (x : Except Stop Unit) (s : Session (Log × ω)) : Prop where
  still : κ.Stilled 1 s
  calm : x = .ok () → κ.Stilled 0 s
  told : κ.Past s → ∀ stop, x = .error stop → κ.Tells stop
  killed : κ.Past s → ∀ e, x = .error (.error e) → e.isKilled = true

theorem Spent.of_not_past {x : Except Stop Unit} (h : ¬κ.Past s) : κ.Spent x s :=
  ⟨.of_not_past h, fun _ => .of_not_past h, fun hs => absurd hs h, fun hs => absurd hs h⟩

end Log.Kill

/-- An error that does not tell of a kill. -/
def Stop.Fails (stop : Stop) : Prop := ∃ e, stop = .error e ∧ ∀ sql, e ≠ .killed sql

def Stop.Panics (stop : Stop) : Prop := ∃ c, stop = .panic c

theorem Run.charges_fails : Charges Duty.isStatement Stop.Fails where
  statement _ hd := hd
  panic _ h := by
    obtain ⟨e, he, -⟩ := h
    cases he
  hang h := by
    obtain ⟨e, he, -⟩ := h
    cases he
  killed sql h := by
    obtain ⟨e, he, hne⟩ := h
    cases he
    exact hne sql rfl

theorem Run.charges_panics : Charges (fun _ => true) Stop.Panics where
  statement _ _ := rfl
  panic _ _ _ := rfl
  hang h := by
    obtain ⟨c, hc⟩ := h
    cases hc
  killed sql h := by
    obtain ⟨c, hc⟩ := h
    cases hc

namespace Log.Kill

theorem mem_later_of_informed {kind : Duty → Bool} {stop : Stop} (h : s.Informed kind stop)
    (hway : s.log <+: κ.log) (hs : κ.Past s) :
    ∃ d, kind d = true ∧ .returned d (.error stop) ∈ κ.later := by
  obtain ⟨earlier, d, hlog, hd⟩ := h
  exact ⟨d, hd, (since_within hway).subset (mem_since hlog hway hs rfl)⟩

theorem tells_of_panic {m : Run (Log × ω) α} {c : Panic}
    (hm : Blames (fun _ => true) Stop.Panics m) (hrun : m s = (.error (.panic c), s'))
    (hway : s'.log <+: κ.log) (hs : κ.Past s') : κ.Tells (.panic c) := by
  obtain ⟨d, -, hmem⟩ := mem_later_of_informed (hm s _ s' hrun ⟨c, rfl⟩) hway hs
  exact .panicked hmem

end Log.Kill

namespace Query

variable {q : Query} {sql : String} {last : Bool}

theorem attemptStatement_tells {stop : Stop}
    (hrun : attemptStatement p.logged q sql last s = (.error stop, s'))
    (hway : s'.log <+: κ.log) (hs : κ.Past s') : κ.Tells stop := by
  cases stop with
  | hang => exact .stuck
  | panic c =>
    exact Log.Kill.tells_of_panic (blames_attemptStatement charges_panics p q sql last) hrun hway hs
  | error e =>
    by_cases hkilled : ∃ sql, e = .killed sql
    · obtain ⟨sql, rfl⟩ := hkilled
      exact .killed sql
    · have hfails : (Stop.error e).Fails := ⟨e, rfl, fun sql h => hkilled ⟨sql, h⟩⟩
      have hblamed := blames_attemptStatement charges_fails p q sql last s _ s' hrun hfails
      obtain ⟨d, hd, hmem⟩ := Log.Kill.mem_later_of_informed hblamed hway hs
      exact .reported hd hmem

/-- A kill that comes to a statement or a sink does not come to a reconnect. -/
theorem restore_not_past {y : Except Stop Bool} (hbusy : κ.duty.isBusy = true)
    (hrun : Link.restore p.logged s = (y, s')) (hway : s'.log <+: κ.log) (hs : ¬κ.Past s) :
    ¬κ.Past s' := by
  intro hs'
  have hc : Link.Covers (making ω fun d => d.isConnecting Attempt.isAutomatic = true) p
      Attempt.isAutomatic := ⟨fun d hd => making_permits hd, fun _ => making_same rfl⟩
  have hgoes := (Link.follows_restore hc rfl).grown id hrun
  have hconnect := Log.Kill.duty_of_making hgoes hway hs hs'
  rw [Duty.isBusy_of_isConnecting hconnect] at hbusy
  cases hbusy

theorem switching_runWithRetries (retries : Nat) :
    Follows (switching ω) (runWithRetries p.logged q sql last retries) :=
  follows_runWithRetries (Task.switching_covers p) q sql last
    (fun started => switching_readSets p q sql last started _) retries

theorem switching_afterFailure {e : Error} {retries : Nat} :
    Follows (switching ω) (afterFailure p.logged sql e (retry p.logged q sql last retries)) := by
  refine follows_afterFailure
    (Link.follows_restore (Task.switching_covers p).toConnecting rfl) sql e _ fun again hagain => ?_
  cases retries with
  | zero => cases hagain
  | succ retries =>
    cases hagain
    exact switching_runWithRetries retries

/-- A killed statement is begun at most once more, and not retried. -/
theorem walks_runWithRetries (hbusy : κ.duty.isBusy = true) (retries : Nat) :
    κ.Walks (κ.Stilled 0) (runWithRetries p.logged q sql last retries) κ.Spent := by
  refine ⟨switching_runWithRetries retries, fun {s x s'} hrun hway hon hs => ?_⟩
  induction retries using Nat.strongRecOn generalizing s with
  | ind retries ih =>
    have hattempt : κ.Walks (κ.Stilled 0) (attemptStatement p.logged q sql last)
      fun x s => κ.Stilled 1 s ∧ (x = .ok () → κ.Stilled 0 s) := walks_attemptStatement
    rw [runWithRetries_apply] at hrun
    rcases hfirst : attemptStatement p.logged q sql last s with ⟨(e | c | _) | _, s₁⟩ <;>
      rw [hfirst] at hrun
    · dsimp only at hrun
      have hway₁ := (walks_past (κ := κ) switching_afterFailure).way hrun hway
      obtain ⟨hstill, -⟩ := hattempt.walks hfirst hway₁ hon hs
      have hon₁ := hon.follows hattempt.switches hfirst (by simp) hway₁
      -- who finds the switch off is ahead of the kill
      have hunseen : s₁.killed = false → ¬κ.Past s₁ := fun hoff hpast => by
        rw [hon₁ hpast] at hoff
        cases hoff
      cases afterFailure_cases hrun with
      | replaced =>
        refine ⟨hstill, by simp, fun _ stop hstop => ?_, fun _ e he => ?_⟩
        · cases hstop
          exact .killed _
        · cases he
          rfl
      | passed he =>
        refine ⟨hstill, by simp, fun hpast stop hstop => ?_, fun hpast e' he' => ?_⟩
        · cases hstop
          exact attemptStatement_tells hfirst hway hpast
        · cases he'
          exact he (hon₁ hpast)
      | abandoned hoff hback =>
        exact .of_not_past (restore_not_past hbusy hback hway (hunseen hoff))
      | @retried again _ s₂ _ hagain hoff hback hrun =>
        -- a further try is begun ahead of the kill, since a reconnect is no place for it to come
        cases retries with
        | zero => cases hagain
        | succ retries =>
          cases hagain
          have hway₂ := (walks_past (κ := κ) (switching_runWithRetries retries)).way hrun hway
          have hpast₂ := restore_not_past hbusy hback hway₂ (hunseen hoff)
          exact ih retries (Nat.lt_succ_self _) hrun (fun hpast => absurd hpast hpast₂)
            (.of_not_past hpast₂)
    all_goals
      cases hrun
      obtain ⟨hstill, hcalm⟩ := hattempt.walks hfirst hway hon hs
      exact ⟨hstill, hcalm, fun hpast stop hstop =>
        attemptStatement_tells (hfirst.trans (by rw [hstop])) hway hpast, fun _ e he => by cases he⟩

theorem switching_runStatements (statements : List String) :
    Follows (switching ω) (runStatements p.logged q statements) :=
  follows_runStatements (Task.switching_covers p) q
    (fun sql last started => switching_readSets p q sql last started _) statements

/-- Of all the statements of a killed query at most one more is begun. -/
theorem walks_runStatements (hbusy : κ.duty.isBusy = true) (statements : List String) :
    κ.Walks (κ.Stilled 0) (runStatements p.logged q statements) κ.Spent := by
  induction statements with
  | nil =>
    refine ⟨follows_pure (), fun {s x s'} hrun _ _ hs => ?_⟩
    cases hrun
    exact ⟨hs.mono (Nat.zero_le 1), fun _ => hs, by simp, by simp⟩
  | cons sql rest ih =>
    refine ⟨switching_runStatements (sql :: rest), fun {s x s'} hrun hway hon hs => ?_⟩
    rw [runStatements_apply] at hrun
    exact (Log.Kill.Walks.bind (walks_runWithRetries hbusy _)
      (fun _ => ih.weaken fun _ h => h.calm rfl) fun _ _ h => h).walks hrun hway hon
        (hs.calmly (making_same rfl))

end Query

namespace Log.Kill

/-- What ends a query in an error after the kill. -/
inductive Fault (κ : Kill) : Error → Prop where
  | killed (sql : Option String) : Fault κ (.killed sql)
  | reported {d : Duty} {e : Error} (hd : d.isStatement = true) (he : e.isKilled = true)
      (h : .returned d (.error (.error e)) ∈ κ.later) : Fault κ e
  | panicked {d : Duty} {c : Panic} (h : .returned d (.error (.panic c)) ∈ κ.later) :
      Fault κ (Task.panicError c)

theorem Tells.fault_of_error {e : Error} (h : κ.Tells (.error e)) (he : e.isKilled = true) :
    κ.Fault e := by
  cases h with
  | killed sql => exact .killed sql
  | reported hd h => exact .reported hd he h

theorem Tells.fault_of_panic {c : Panic} (h : κ.Tells (.panic c)) :
    κ.Fault (Task.panicError c) := by
  cases h with
  | panicked h => exact .panicked h

/-- The ends of a query that was killed. It ends well only if the last result set of its last
statement was being read to its end before the kill. Else it ends in an error that tells of the
kill: its own, or one that the backend has reported as such. An end that the kill finds on its way
to the sink stays what it is, and a panic from then on still ends the query as panics do. -/
inductive Quelled (κ : Kill) (p : Parties ω) (q : Query) (s : Session (Log × ω)) : Prop where
  | finished {sql : String} {a : Session (Log × ω)} (hterm : s.active.courier.terminal = some .ok)
      (hlast : q.statements.getLast? = some sql) (hread : Query.ReadOut p q sql a s)
      (hbefore : ¬κ.Past a) : Quelled κ p q s
  | killed (hterm : s.active.courier.terminal = some .error)
      (herror : s.active.stats.lastError = some ⟨"Query killed", .engine, none, none⟩) :
      Quelled κ p q s
  | reported {d : Duty} {e : Error} (hd : d.isStatement = true) (he : e.isKilled = true)
      (hmem : .returned d (.error (.error e)) ∈ κ.later)
      (hterm : s.active.courier.terminal = some .error)
      (herror : s.active.stats.lastError = some (.ofError e)) : Quelled κ p q s
  | panicked {d : Duty} {c : Panic} (hmem : .returned d (.error (.panic c)) ∈ κ.later)
      (hterm : s.active.courier.terminal = some .error)
      (herror : s.active.stats.lastError = some (.ofError (Task.panicError c))) : Quelled κ p q s
  | late {sink : Sink} {event : Event} (hduty : κ.duty = .deliver sink event)
      (hfailure : event.state.isFailure = true)
      (hterm : s.active.courier.terminal = some event.state)
      (herror : event.state = .error → s.active.stats.lastError = event.error) : Quelled κ p q s

variable {q : Query}

theorem Fault.quelled {e : Error} (he : κ.Fault e) (hterm : s.active.courier.terminal = some .error)
    (herror : s.active.stats.lastError = some (.ofError e)) : κ.Quelled p q s := by
  cases he with
  | killed sql => exact .killed hterm herror
  | reported hd he h => exact .reported hd he h hterm herror
  | panicked h => exact .panicked h hterm herror

theorem Quelled.calmly (h : κ.Quelled p q s) (hgoes : (calmly ω).Goes s s')
    (hactive : s'.active = s.active) : κ.Quelled p q s' := by
  cases h with
  | finished hterm hlast hread hbefore =>
    exact .finished (by rwa [hactive]) hlast (hread.calmly hgoes) hbefore
  | killed hterm herror => exact .killed (by rwa [hactive]) (by rwa [hactive])
  | reported hd he hmem hterm herror =>
    exact .reported hd he hmem (by rwa [hactive]) (by rwa [hactive])
  | panicked hmem hterm herror => exact .panicked hmem (by rwa [hactive]) (by rwa [hactive])
  | late hduty hfailure hterm herror =>
    exact .late hduty hfailure (by rwa [hactive]) (by rwa [hactive])

theorem Stilled.not_past_of_exhausted {n : Nat} {a : Session (Log × ω)} (h : κ.Stilled n s)
    (hread : Query.Exhausted p a s) : ¬κ.Past a := by
  intro hpast
  obtain ⟨hfetch, hquiet, hnext, hsince⟩ := hread
  obtain ⟨new, hturned⟩ := exists_turned (d := .fetchRow) (m := p.backend.fetchRow) hfetch
  obtain ⟨rest, hrest⟩ := (making_extends hquiet).trans
    ((making_extends ((making_permits (P := fun _ => True) (d := .nextResult) trivial
      p.backend.nextResult).grown id hnext)).trans (making_extends hsince))
  have hlog : s.log = a.log ++ (new ++ rest) := by
    rw [← hrest, hturned.log, List.append_assoc]
  have hmem : Duty.fetchRow ∈ Log.calls (κ.since s) := by
    rw [since_grown hlog, Nat.sub_eq_zero_of_le hpast, List.drop_zero, calls_append, calls_append,
      hturned.calls]
    simp
  cases (h.calls _ hmem).1

end Log.Kill

namespace Task

variable {q : Query} {n : Nat}

theorem calmly_endInError (p : Parties ω) (e : Error) :
    Follows (calmly ω) (endInError p.logged e) :=
  making_endInError p fun _ _ _ _ => rfl

/-- A kill that comes while the last event is on its way is too late. -/
theorem quelled_of_late {state : Progress} {error : Option ErrorReport}
    (hstate : state.isFailure = true)
    (hgoes : (making ω fun d => ∃ sink event, d = .deliver sink event ∧ event.state = state ∧
      event.error = error).Goes s s')
    (hterm : s'.active.courier.terminal = some state)
    (herror : state = .error → s'.active.stats.lastError = error) (hway : s'.log <+: κ.log)
    (hs : ¬κ.Past s) (hs' : κ.Past s') : κ.Quelled p q s' := by
  obtain ⟨sink, event, hduty, rfl, rfl⟩ := Log.Kill.duty_of_making hgoes hway hs hs'
  exact .late hduty hstate hterm herror

/-- The task ends in the error that the kill calls for. -/
theorem endInError_quelled {e : Error} {x : Except Stop Unit}
    (hrun : endInError p.logged e s = (x, s')) (hopen : s.active.courier.terminal = none)
    (hway : s'.log <+: κ.log) (hfault : κ.Past s → κ.Fault e) :
    Closed s' ∧ (κ.Past s' → κ.Quelled p q s') := by
  obtain ⟨new, y, s₁, hend, -, hreports, hterm, -⟩ := endInError_sends p e s hopen
  obtain ⟨-, rfl⟩ := Prod.ext_iff.mp (hend.symm.trans hrun)
  refine ⟨by simp [Closed, hterm], fun hpast => ?_⟩
  by_cases hs : κ.Past s
  · exact (hfault hs).quelled hterm hreports.lastError
  · exact quelled_of_late rfl
      ((making_endInError p fun sink event hst herr => ⟨sink, event, rfl, hst, herr⟩).grown id hrun)
      hterm (fun _ => hreports.lastError) hway hs hpast

/-- What the run of a query leaves: it was stopped before it came to an end, or it has come to one
that becomes a query that was killed. -/
structure Halted (κ : Log.Kill) (p : Parties ω) (q : Query) (x : Except Stop Unit)
    (s : Session (Log × ω)) : Prop where
  still : κ.Stilled 1 s
  ended : s.active.courier.terminal = none ∧ x ≠ .ok () ∧
      (κ.Past s → ∀ c, x = .error (.panic c) → κ.Fault (panicError c)) ∨
    Closed s ∧ (κ.Past s → κ.Quelled p q s)

theorem quelled_of_reads {sql : String} {a : Session (Log × ω)}
    (hterm : s.active.courier.terminal = some .ok) (hlast : q.statements.getLast? = some sql)
    (hread : Query.ReadOut p q sql a s) (hstill : κ.Stilled n s) : κ.Quelled p q s :=
  .finished hterm hlast hread (hstill.not_past_of_exhausted hread.exhausted)

theorem clockOff_goes (p : Parties ω) (started : Nat) (s : Session (Log × ω)) :
    ∃ s', clockOff p.logged started s = (.ok (), s') ∧ (calmly ω).Goes s s' ∧
      s'.log = s.log ∧ s'.active.courier = s.active.courier :=
  ⟨_, rfl, making_same rfl, rfl, rfl⟩

theorem conclude_halts {started : Nat} {x : Except Stop Unit}
    (hrun : conclude p.logged started (q.run p.logged) (fun _ => pure ()) s = (x, s'))
    (hbusy : κ.duty.isBusy = true) (hne : q.statements ≠ [])
    (hopen : s.active.courier.terminal = none) (hway : s'.log <+: κ.log) (hon : κ.On s)
    (hs : κ.Stilled 0 s) : Halted κ p q x s' := by
  have hquery : q.run p.logged s = Query.runStatements p.logged q q.statements s := by
    rw [Query.run, if_neg (by simpa using hne)]
  have hwalks : κ.Walks (κ.Stilled 0) (Query.runStatements p.logged q q.statements) κ.Spent :=
    Query.walks_runStatements hbusy q.statements
  rw [conclude, bind_apply, attempt, hquery] at hrun
  rcases hstatements : Query.runStatements p.logged q q.statements s with ⟨(e | c | _) | _, s₁⟩ <;>
    rw [hstatements] at hrun
  -- the clock does not look at the task, so the error ends it as it left the statements
  case error.error =>
    obtain ⟨s₂, hclock, hgoes, hlog, hcourier⟩ := clockOff_goes p started s₁
    dsimp only at hrun
    rw [bind_of_ok hclock] at hrun
    have hend := (calmly_endInError p e).grown id hrun
    have hway₁ : s₁.log <+: κ.log := by
      rw [← hlog]
      exact (making_extends hend).trans hway
    have hspent := hwalks.walks hstatements hway₁ hon hs
    have hopen₁ := (Query.runStatements_open hstatements).trans hopen
    refine ⟨(hspent.still.calmly hgoes).calmly hend, .inr ?_⟩
    refine endInError_quelled hrun (by rw [hcourier]; exact hopen₁) hway fun hpast => ?_
    replace hpast : κ.Past s₁ := by rwa [Log.Kill.Past, ← hlog]
    exact (hspent.told hpast _ rfl).fault_of_error (hspent.killed hpast e rfl)
  -- a query that comes back has closed its task, and so has read its last result set to the end
  case ok =>
    obtain ⟨s₂, hclock, hgoes, hlog, hcourier⟩ := clockOff_goes p started s₁
    dsimp only at hrun
    rw [bind_of_ok hclock] at hrun
    cases hrun
    have hstill := (hwalks.walks hstatements (by rwa [← hlog]) hon hs).still
    have hclosed : Closed s₁ := Query.leaves_run p q s () s₁ (hquery.trans hstatements)
    rcases Query.runStatements_closes hstatements hopen with
      hopen₁ | ⟨⟨sql, hlast, hcompletes⟩, -⟩
    · simp [Closed, hopen₁] at hclosed
    · obtain ⟨a, hread⟩ := hcompletes.readOut
      refine ⟨hstill.calmly hgoes, .inr ⟨by simpa [Closed, hcourier] using hclosed, fun _ => ?_⟩⟩
      exact quelled_of_reads (by rw [hcourier]; exact hcompletes.terminal) hlast
        (hread.calmly hgoes) (hstill.calmly hgoes)
  all_goals
    cases hrun
    have hspent := hwalks.walks hstatements hway hon hs
    refine ⟨hspent.still, ?_⟩
    rcases Query.runStatements_closes hstatements hopen with
      hopen₁ | ⟨⟨sql, hlast, hcompletes⟩, -⟩
    · exact .inl ⟨hopen₁, by simp, fun hpast c hc => (hspent.told hpast _ hc).fault_of_panic⟩
    · obtain ⟨a, hread⟩ := hcompletes.readOut
      exact .inr ⟨by simp [Closed, hcompletes.terminal], fun _ =>
        quelled_of_reads hcompletes.terminal hlast hread hspent.still⟩

theorem switching_conclude (p : Parties ω) (q : Query) (started : Nat) :
    Follows (switching ω) (conclude p.logged started (q.run p.logged) fun _ => pure ()) := by
  have hc := switching_covers p
  refine follows_conclude hc started (Query.follows_run hc q fun sql last started => ?_)
    fun _ => follows_pure ()
  exact Query.switching_readSets p q sql last started _

theorem execute_halts {x : Except Stop Unit} (hrun : execute p.logged s = (x, s'))
    (hwork : s.active.work = .query q) (hbusy : κ.duty.isBusy = true) (hne : q.statements ≠ [])
    (hopen : s.active.courier.terminal = none) (hway : s'.log <+: κ.log) (hs : ¬κ.Past s) :
    Halted κ p q x s' := by
  obtain ⟨new, y, s₁, hemit, -, hopen₁, -, hy⟩ :=
    emit_sends p .pending (some startedMessage) none none s hopen
  have hgoes := (Query.calmly_emit p .pending (some startedMessage) none none).grown id hemit
  have hstill : κ.Stilled 0 s₁ := (Log.Kill.Stilled.of_not_past hs).calmly hgoes
  rw [Query.execute_query p.logged hwork, bind_apply, hemit] at hrun
  rcases y with stop | _
  · cases hrun
    refine ⟨hstill.mono (Nat.zero_le 1), .inl ⟨hopen₁, by simp, fun hpast c hc => ?_⟩⟩
    rw [hc] at hemit
    exact (Log.Kill.tells_of_panic (blames_emit charges_panics p _ _ _ _) hemit hway
      hpast).fault_of_panic
  · dsimp only at hrun
    have hway₁ := (Query.walks_past (κ := κ) (switching_conclude p q _)).way hrun hway
    have hon : κ.On s := fun hpast => absurd hpast hs
    exact conclude_halts hrun hbusy hne hopen₁ hway
      (hon.follows (switching_emit p _ _ _ _) hemit (by simp) hway₁) hstill

theorem exists_endInError {c : Panic} {x : Except Stop Unit}
    (hrun : shielded (fail p.logged (panicError c)) s = (x, s'))
    (hwork : s.active.work = .query q) :
    ∃ y, endInError p.logged (panicError c) s = (y, s') := by
  rw [shielded_apply, fail_builtIn _ _ s (by rw [hwork]; rfl)] at hrun
  rcases hr : endInError p.logged (panicError c) s with ⟨(_ | _ | _) | _, s₁⟩ <;>
    rw [hr] at hrun <;> cases hrun <;> exact ⟨_, rfl⟩

/-- A panic of a query that was killed ends it, unless it has ended already. -/
theorem endInError_halted {c : Panic} {y : Except Stop Unit}
    (hrun : endInError p.logged (panicError c) s = (y, s')) (hway : s'.log <+: κ.log)
    (hs : Halted κ p q (.error (.panic c)) s) :
    κ.Stilled 1 s' ∧ (κ.Past s' → κ.Quelled p q s') := by
  rcases hs.ended with ⟨hopen, -, hfault⟩ | ⟨hclosed, hquelled⟩
  · exact ⟨hs.still.calmly ((calmly_endInError p _).grown id hrun),
      (endInError_quelled hrun hopen hway fun hpast => hfault hpast c rfl).2⟩
  · rw [endInError_closed _ _ s hclosed] at hrun
    cases hrun
    exact ⟨hs.still, hquelled⟩

theorem cancel_work {x : Except Stop Unit} (hrun : cancel p.logged s = (x, s'))
    (hwork : s.active.work = .query q) (hopen : s.active.courier.terminal = none) :
    s'.active.work = .query q := by
  rw [cancel_builtIn _ s (by rw [hwork]; rfl)] at hrun
  obtain ⟨new, y, s₁, hemit, hsends, -, -, -⟩ :=
    emit_sends p .cancelled none none none (reportCancelled s) hopen
  obtain rfl : s₁ = s' := congrArg Prod.snd (hemit.symm.trans hrun)
  exact hsends.work.trans hwork

theorem cancel_halts {x : Except Stop Unit} (hrun : cancel p.logged s = (x, s'))
    (hwork : s.active.work = .query q) (hopen : s.active.courier.terminal = none)
    (hway : s'.log <+: κ.log) (hs : ¬κ.Past s) : Halted κ p q x s' := by
  rw [cancel_builtIn _ s (by rw [hwork]; rfl)] at hrun
  obtain ⟨new, y, s₁, hemit, -, hterm, -, -⟩ :=
    emit_sends p .cancelled none none none (reportCancelled s) hopen
  obtain rfl : s₁ = s' := congrArg Prod.snd (hemit.symm.trans hrun)
  have hstill : κ.Stilled 1 s₁ := (Log.Kill.Stilled.of_not_past (s := reportCancelled s) hs).calmly
    ((Query.calmly_emit p .cancelled none none none).grown id hrun)
  refine ⟨hstill, .inr ⟨by rw [Closed, hterm]; rfl, fun hpast => ?_⟩⟩
  exact quelled_of_late (s := reportCancelled s) rfl
    ((making_emit p (fun sink event hst herr => ⟨sink, event, rfl, hst, herr⟩) none none).grown id
      hrun) hterm (by simp) hway hs hpast

theorem undertake_quelled {cancelled : Bool} {x : Except Stop Unit}
    (hrun : undertake p.logged cancelled s = (x, s')) (hwork : s.active.work = .query q)
    (hbusy : κ.duty.isBusy = true) (hne : q.statements ≠ [])
    (hopen : s.active.courier.terminal = none) (hway : s'.log <+: κ.log) (hs : ¬κ.Past s) :
    κ.Stilled 1 s' ∧ (x = .ok () → κ.Past s' → κ.Quelled p q s') := by
  have hhalts : ∀ {y s₁}, (if cancelled then cancel p.logged else execute p.logged) s = (y, s₁) →
      (s₁.log <+: κ.log → Halted κ p q y s₁) ∧
        (y ≠ .error .hang → s₁.active.work = .query q) := by
    intro y s₁ hr
    cases cancelled with
    | true => exact ⟨fun hway₁ => cancel_halts hr hwork hopen hway₁ hs,
        fun _ => cancel_work hr hwork hopen⟩
    | false => exact ⟨fun hway₁ => execute_halts hr hwork hbusy hne hopen hway₁ hs,
        fun hy => execute_work hwork hr hy hopen⟩
  rw [undertake_apply] at hrun
  rcases hr : (if cancelled then cancel p.logged else execute p.logged) s with
    ⟨(e | c | _) | _, s₁⟩ <;> rw [hr] at hrun
  case error.panic =>
    obtain ⟨hhalted, hwork₁⟩ := hhalts hr
    obtain ⟨y, hend⟩ := exists_endInError hrun (hwork₁ (by simp))
    have hway₁ := (making_extends ((calmly_endInError p _).grown id hend)).trans hway
    obtain ⟨hstill, hquelled⟩ := endInError_halted hend hway (hhalted hway₁)
    exact ⟨hstill, fun _ => hquelled⟩
  all_goals
    cases hrun
    have hhalted := (hhalts hr).1 hway
    refine ⟨hhalted.still, fun hx => ?_⟩
    rcases hhalted.ended with ⟨-, hnot, -⟩ | ⟨-, hquelled⟩
    · exact absurd hx hnot
    · exact hquelled

theorem announce_quiet {phase : Milestone} {requestId : Option String} {x : Except Stop Unit}
    (hrun : announce p.logged phase requestId s = (x, s')) :
    (calmly ω).Goes s s' ∧ s'.active = s.active ∧
      (κ.duty.isBusy = true → s'.log <+: κ.log → κ.Past s' → κ.Past s) := by
  have hcalm : Follows (calmly ω) (announce p.logged phase requestId) :=
    follows_announce fun _ => calmly_permits p rfl
  have hidle : Follows (making ω fun d => d.isBusy = false) (announce p.logged phase requestId) :=
    follows_announce fun _ => making_permits (P := fun d => d.isBusy = false) rfl
  refine ⟨hcalm.grown id hrun, (sameActive_announce p phase requestId).grown id hrun,
    fun hbusy hway hpast => Classical.byContradiction fun hs => ?_⟩
  rw [Log.Kill.duty_of_making (hidle.grown id hrun) hway hs hpast] at hbusy
  cases hbusy

theorem finishes_quelled {requestId : Option String} {x : Except Stop Unit}
    (hrun : (do account p.logged; announce p.logged .finished requestId) s = (x, s'))
    (hwork : s.active.work = .query q) :
    (calmly ω).Goes s s' ∧ s'.active = s.active ∧
      (κ.duty.isBusy = true → s'.log <+: κ.log → κ.Past s' → κ.Past s) ∧
      (x = .ok () ∨ x = .error .hang ∧ (awaiting ω p.patience p.patience).Sticks s s') := by
  rw [bind_apply, account_builtIn _ s (by rw [hwork]; rfl)] at hrun
  obtain ⟨hcalm, hactive, hidle⟩ := announce_quiet (κ := κ) hrun
  refine ⟨(calmly ω).trans (making_same rfl) hcalm, hactive, hidle, ?_⟩
  rcases announce_completes p .finished requestId { s with
    stats := LastRunStats.ofRun s.active.stats, statsHeld := false } with
    ⟨s₁, hr, hstuck⟩ | ⟨s₁, hr, -⟩
  · cases hr.symm.trans hrun
    exact .inr ⟨rfl, Course.sticks _ (awaiting_same_log rfl) hstuck⟩
  · cases hr.symm.trans hrun
    exact .inl rfl

theorem perform_halts {t : Task} {x : Except Stop Unit} (hrun : perform p.logged t s = (x, s'))
    (hwork : t.work = .query q) (hbusy : κ.duty.isBusy = true) (hne : q.statements ≠ [])
    (hopen : t.courier.terminal = none) (hway : s'.log <+: κ.log) (hs : ¬κ.Past s)
    (hs' : κ.Past s') :
    κ.Stilled 1 s' ∧ (x = .ok () ∧ κ.Quelled p q s' ∨
      x = .error .hang ∧ (awaiting ω p.patience p.patience).Sticks (takeUp t s) s') := by
  rw [perform_eq, bind_apply] at hrun
  -- neither the observers nor the report of a query are a place for the kill to come
  rcases announce_completes p .started t.requestId (takeUp t s) with
    ⟨s₁, hr₁, -⟩ | ⟨s₁, hr₁, hfirst⟩ <;> rw [hr₁] at hrun
  · cases hrun
    exact absurd ((announce_quiet hr₁).2.2 hbusy hway hs') hs
  obtain ⟨-, hactive, hidle⟩ := announce_quiet (κ := κ) hr₁
  have hwork₁ : (holdStats s₁).active.work = .query q := by
    rw [← hwork]
    exact congrArg Task.work hactive
  have hopen₁ : (holdStats s₁).active.courier.terminal = none := by
    rw [← hopen]
    exact congrArg (·.courier.terminal) hactive
  have hpre : (awaiting ω p.patience p.patience).Goes (takeUp t s) (holdStats s₁) :=
    Course.trans _ hfirst.2 (awaiting_same_log rfl)
  change (undertake p.logged (marked t s) >>= _) (holdStats s₁) = _ at hrun
  rw [bind_apply] at hrun
  rcases undertake_completes p (marked t s) (holdStats s₁) (by rw [hwork₁]; rfl) hopen₁ with
    ⟨s₂, hr₂, hstuck⟩ | ⟨s₂, hr₂, hgoes, new, _, _, hsends, -, -⟩ <;> rw [hr₂] at hrun
  · cases hrun
    have hway₁ : s₁.log <+: κ.log := by
      obtain ⟨new, hnew, -⟩ := hstuck
      exact List.IsPrefix.trans ⟨new, hnew.symm⟩ hway
    have hs₁ : ¬κ.Past (holdStats s₁) := fun h => hs (hidle hbusy hway₁ h)
    exact ⟨(undertake_quelled hr₂ hwork₁ hbusy hne hopen₁ hway hs₁).1,
      .inr ⟨rfl, Course.sticks _ hpre hstuck⟩⟩
  · obtain ⟨hcalm, hactive₂, hidle₂, hx⟩ :=
      finishes_quelled (κ := κ) hrun (hsends.work.trans hwork₁)
    have hway₂ := (making_extends hcalm).trans hway
    have hway₁ : s₁.log <+: κ.log := List.IsPrefix.trans ⟨new, hsends.log.symm⟩ hway₂
    have hs₁ : ¬κ.Past (holdStats s₁) := fun h => hs (hidle hbusy hway₁ h)
    obtain ⟨hstill, hquelled⟩ := undertake_quelled hr₂ hwork₁ hbusy hne hopen₁ hway₂ hs₁
    refine ⟨hstill.calmly hcalm, hx.imp (fun hx => ⟨hx, ?_⟩) fun ⟨hx, hstuck⟩ => ⟨hx, ?_⟩⟩
    · exact (hquelled rfl (hidle₂ hbusy hway hs')).calmly hcalm hactive₂
    · exact Course.sticks _ hpre (Course.sticks _ hgoes hstuck)

/-- A kill that comes while a query runs a statement, reads its results or hands over an event, and
that no new query lifts, stops it: from then on it asks for no row, does nothing towards a
connection and begins one more statement at most. It comes to one of the ends of a query that was
killed, unless somebody never comes back to it. -/
theorem perform_quelled (p : Parties ω) {t : Task} {q : Query} {κ : Log.Kill}
    {s s' : Session (Log × ω)} {x : Except Stop Unit} (hwork : t.work = .query q)
    (hne : q.statements ≠ []) (hopen : t.courier.terminal = none)
    (hrun : perform p.logged t s = (x, s')) (hlog : s'.log = κ.log)
    (hbegun : s.log <+: κ.earlier) (hbusy : κ.duty.isBusy = true) :
    (∀ d ∈ Log.calls κ.later,
        d.isFetch = false ∧ d.isConnecting (fun _ => true) = false) ∧
      (Log.calls κ.later).countP Duty.isExecute ≤ 1 ∧
      (x = .ok () ∧ κ.Quelled p q s' ∨ x = .error .hang ∧
        ∃ new, s'.log = s.log ++ new ∧ Log.Stuck p.patience p.patience new) := by
  have hearlier : κ.earlier.length < κ.head.length := by
    rw [Log.Kill.head, List.length_append, List.length_cons]
    omega
  have hs : ¬κ.Past s := fun hpast =>
    absurd (Nat.le_trans hpast hbegun.length_le) (Nat.not_le.mpr hearlier)
  have hs' : κ.Past s' := by
    rw [Log.Kill.Past, hlog, Log.Kill.log, List.length_append]
    exact Nat.le_add_right _ _
  have hway : s'.log <+: κ.log := ⟨[], by rw [List.append_nil, hlog]⟩
  obtain ⟨hstill, hend⟩ := perform_halts hrun hwork hbusy hne hopen hway hs hs'
  have hlater := Log.Kill.since_log hlog
  have hcalls := hstill.calls
  have hexecutes := hstill.executes
  rw [hlater] at hcalls hexecutes
  exact ⟨hcalls, hexecutes, hend⟩

namespace Struck

open Rehearsal

/-- Calls somebody to a statement, or to take an event. -/
def callsBusy : Entry → Bool
  | .called d => d.isBusy
  | _ => false

def asksKill : Entry → Bool
  | .asked _ .kill _ => true
  | _ => false

theorem eq_called_of_callsBusy {e : Entry} (h : callsBusy e = true) :
    ∃ d, e = .called d ∧ d.isBusy = true := by
  cases e with
  | called d => exact ⟨d, rfl, h⟩
  | returned | asked | interrupted => cases h

theorem eq_asked_of_asksKill {e : Entry} (h : asksKill e = true) :
    ∃ thread a, e = .asked thread .kill a := by
  unfold asksKill at h
  split at h
  · exact ⟨_, _, rfl⟩
  · cases h

theorem split_of_any {log : Log} {k : Nat} {f : Entry → Bool} (h : log[k]?.any f = true) :
    ∃ e, f e = true ∧ log = log.take k ++ e :: log.drop (k + 1) := by
  cases he : log[k]? with
  | none => simp [he] at h
  | some e =>
    obtain ⟨hk, rfl⟩ := List.getElem?_eq_some_iff.mp he
    refine ⟨log[k], by simpa [he] using h, ?_⟩
    rw [List.getElem_cons_drop, List.take_append_drop]

theorem exists_kill {base new : Log} {i j : Nat}
    (hcall : (new.take j)[i]?.any callsBusy = true) (hkill : new[j]?.any asksKill = true)
    (haside : ((new.take j).drop (i + 1)).all Entry.isAside = true)
    (hlift : (new.drop (j + 1)).all (fun e => !Slow.asksQuery e) = true) :
    ∃ κ : Log.Kill, base ++ new = κ.log ∧ base <+: κ.earlier ∧ κ.duty.isBusy = true := by
  obtain ⟨e, hkill, hnew⟩ := split_of_any hkill
  obtain ⟨thread, a, rfl⟩ := eq_asked_of_asksKill hkill
  obtain ⟨e, hcall, hbefore⟩ := split_of_any hcall
  obtain ⟨d, rfl, hbusy⟩ := eq_called_of_callsBusy hcall
  refine ⟨⟨base ++ (new.take j).take i, d, (new.take j).drop (i + 1), thread, a, new.drop (j + 1),
    List.all_eq_true.mp haside, fun thread t a hmem => ?_⟩, ?_, List.prefix_append _ _, hbusy⟩
  · simpa [Slow.asksQuery] using List.all_eq_true.mp hlift _ hmem
  · rw [hbefore] at hnew
    simpa [Log.Kill.log, Log.Kill.head] using hnew

/-- It waits, and then it has lost the connection. -/
def statement : Statement where
  sql := "LOST"
  gated := true
  drops := true
  fate := .error (.unconnected .driver)

def cast : Cast where
  backend := { interruptible := false, statements := [statement] }

def query : Task := { work := .query (.ofText "LOST"), courier := { sink := .channel 1 } }

/-- An open session that reconnects; what runs is killed while the statement waits. -/
def opened : Session (Log × Scene) :=
  (Session.start cast.parties.logged (.create "s1" "Mock" { autoReconnect := true } {}
    ([], cast.scene {} [{ move := .call .kill }, { move := .permit }]))).2

def ended : Session (Log × Scene) := (perform cast.parties.logged query opened).2

/-- The run of a task comes back, and its part of the log shows a kill. -/
theorem exists_kill_of_run {c : Cast} {t : Task} {s : Session (Log × Scene)} {i j : Nat}
    (hok : (perform c.parties.logged t s).1.isOk = true)
    (hcall : (((perform c.parties.logged t s).2.log.drop s.log.length).take j)[i]?.any
      callsBusy = true)
    (hkill : ((perform c.parties.logged t s).2.log.drop s.log.length)[j]?.any asksKill = true)
    (haside : ((((perform c.parties.logged t s).2.log.drop s.log.length).take j).drop (i + 1)).all
      Entry.isAside = true)
    (hlift : (((perform c.parties.logged t s).2.log.drop s.log.length).drop (j + 1)).all
      (fun e => !Slow.asksQuery e) = true) :
    perform c.parties.logged t s = (.ok (), (perform c.parties.logged t s).2) ∧
      ∃ κ : Log.Kill, (perform c.parties.logged t s).2.log = κ.log ∧ s.log <+: κ.earlier ∧
        κ.duty.isBusy = true := by
  obtain ⟨⟨⟩, hrun⟩ := Slow.exists_of_isOk hok
  obtain ⟨new, hlog, -⟩ := executesReady_perform t hrun (by simp) (ready_refl s.log)
  rw [hlog, List.drop_left] at hcall hkill haside hlift
  rw [hlog]
  exact ⟨hrun, exists_kill hcall hkill haside hlift⟩

theorem perform_quelled_struck :
    ∃ κ : Log.Kill, ended.log = κ.log ∧ opened.log <+: κ.earlier ∧ κ.duty.isBusy = true ∧
      (∀ d ∈ Log.calls κ.later,
        d.isFetch = false ∧ d.isConnecting (fun _ => true) = false) ∧
      (Log.calls κ.later).countP Duty.isExecute ≤ 1 ∧
      κ.Quelled cast.parties (.ofText "LOST") ended ∧
      ended.active.stats.lastError = some ⟨"Query killed", .engine, none, none⟩ := by
  obtain ⟨hrun, κ, hlog, hbegun, hbusy⟩ := exists_kill_of_run (c := cast) (t := query)
    (s := opened) (i := 2) (j := 3) (by decide +kernel) (by decide +kernel) (by decide +kernel)
    (by decide +kernel) (by decide +kernel)
  obtain ⟨hcalls, hexecutes, ⟨-, hquelled⟩ | ⟨hx, -⟩⟩ :=
    perform_quelled cast.parties rfl (by decide) rfl hrun hlog hbegun hbusy
  · exact ⟨κ, hlog, hbegun, hbusy, hcalls, hexecutes, hquelled, by decide +kernel⟩
  · cases hx

/-- A sink that kills what runs at the first event, and then panics at it. -/
def shaken : Cast where
  listeners := [{ deeds := [(0, .call "kill" .kill), (0, .panic ⟨some "boom"⟩)] }]

/-- A sink that kills what runs when it gets the error of the statement. -/
def tardy : Cast where
  backend := { statements := [{ sql := "BAD", fate := .error (.custom "syntax error") }] }
  listeners := [{ deeds := [(1, .call "kill" .kill)] }]

def bad : Task := { work := .query (.ofText "BAD"), courier := { sink := .callback 0 } }

def openedWith (c : Cast) : Session (Log × Scene) :=
  (Session.start c.parties.logged (.create "s1" "Mock" {} {} ([], c.scene {} []))).2

def endedWith (c : Cast) : Session (Log × Scene) :=
  (perform c.parties.logged bad (openedWith c)).2

/-- A panic of the sink that comes after the kill, or an error that was on its way to the sink
before, ends the query in its own words. -/
theorem kill_not_told :
    ((∃ κ : Log.Kill, (endedWith shaken).log = κ.log ∧ (openedWith shaken).log <+: κ.earlier ∧
          κ.duty.isBusy = true) ∧
        (endedWith shaken).killed = true ∧
        (endedWith shaken).active.courier.terminal = some .error ∧
        (endedWith shaken).active.stats.lastError =
          some ⟨"Task panicked: boom", .engine, none, none⟩) ∧
      (∃ κ : Log.Kill, (endedWith tardy).log = κ.log ∧ (openedWith tardy).log <+: κ.earlier ∧
          κ.duty.isBusy = true) ∧
        (endedWith tardy).killed = true ∧
        (endedWith tardy).active.courier.terminal = some .error ∧
        (endedWith tardy).active.stats.lastError =
          some ⟨"syntax error", .engine, none, none⟩ := by
  have hshaken := exists_kill_of_run (c := shaken) (t := bad) (s := openedWith shaken) (i := 0)
    (j := 2) (by decide +kernel) (by decide +kernel) (by decide +kernel) (by decide +kernel)
    (by decide +kernel)
  have htardy := exists_kill_of_run (c := tardy) (t := bad) (s := openedWith tardy) (i := 4)
    (j := 6) (by decide +kernel) (by decide +kernel) (by decide +kernel) (by decide +kernel)
    (by decide +kernel)
  exact ⟨⟨hshaken.2, by decide +kernel, by decide +kernel, by decide +kernel⟩, htardy.2,
    by decide +kernel, by decide +kernel, by decide +kernel⟩

end Struck

end Task
end DatabaseSession
