import DatabaseSession.Proofs.Opening

namespace DatabaseSession

open Run Session

variable {ω : Type}

/-- Where a session's worker stands. -/
inductive Station where
  /-- It is between two requests, or has not been started. -/
  | resting
  /-- It was told to stop or it panicked, and has yet to wind up. -/
  | leaving (cause : Option Panic)
  | gone
  /-- It is in a turn that never ends. -/
  | stuck
  deriving DecidableEq

namespace Station

/-- After a request was taken, or none was there. -/
def ofTaken : Except Stop (Option (Except Panic Bool)) → Station
  | .ok none | .ok (some (.ok true)) => .resting
  | .ok (some (.ok false)) => .leaving none
  | .ok (some (.error q)) => .leaving (some q)
  | .error _ => .stuck

/-- After a call that the worker is started by or that needs no worker. -/
def ofCall : Except Stop Unit → Station
  | .error .hang => .stuck
  | _ => .resting

def ofLeave : Except Stop Unit → Station
  | .ok _ => .gone
  | .error _ => .stuck

end Station

namespace Session

/-- One thing happens to a session with a worker. Callers come in between any two moves of the
worker, which are to take a request and handle it and to wind up at the end. -/
inductive Beat (p : Parties ω) :
    Station → Session (Log × ω) → Station → Session (Log × ω) → Prop where
  | call {st : Station} {s s' : Session (Log × ω)} {call : Call} {a : Answer}
      (h : answer p.logged .caller call s = (some a, s')) :
      Beat p st s st (s'.note (.asked .caller call a))
  /-- A call that is not answered yet has been made all the same. -/
  | wait {st : Station} {s s' : Session (Log × ω)} {call : Call}
      (h : answer p.logged .caller call s = (none, s')) : Beat p st s st s'
  /-- A reconnect is sent by somebody who found the session open some time ago. -/
  | late {st : Station} {s : Session (Log × ω)} (options : Option Options) :
      Beat p st s st (s.requestReconnect options).2
  | claim {st : Station} {s : Session (Log × ω)} : Beat p st s st (Service.claimProbe s).2
  | probe {st : Station} {s : Session (Log × ω)} : Beat p st s st (Service.sendProbe s)
  | elsewhere {st : Station} {s : Session (Log × ω)} (w : ω) :
      Beat p st s st { s with outside := (s.log, w) }
  | start {s s' : Session (Log × ω)} {x : Except Stop Unit} (hlife : s.life = .idle)
      (hthreaded : s.settings.threaded = true) (h : Session.start p.logged s = (x, s')) :
      Beat p .resting s (.ofCall x) s'
  | close {s s' : Session (Log × ω)} {x : Except Stop Unit} (hlife : s.life = .idle)
      (h : Session.close p.logged s = (x, s')) : Beat p .resting s (.ofCall x) s'
  | drop {s s' : Session (Log × ω)} {x : Except Stop Unit} (hlife : s.life = .idle)
      (h : dropHandle p.logged s = (x, s')) : Beat p .resting s (.ofCall x) s'
  | take {s s' : Session (Log × ω)} {x : Except Stop (Option (Except Panic Bool))}
      (hattended : s.mailbox.receiving = true) (h : Service.takeNext p.logged s = (x, s')) :
      Beat p .resting s (.ofTaken x) s'
  | leave {cause : Option Panic} {s s' : Session (Log × ω)} {x : Except Stop Unit}
      (h : Service.leave p.logged cause s = (x, s')) : Beat p (.leaving cause) s (.ofLeave x) s'

/-- A session comes to this state, with its worker standing there. -/
inductive Reaches (p : Parties ω) (s₀ : Session (Log × ω)) :
    Station → Session (Log × ω) → Prop where
  | refl : Reaches p s₀ .resting s₀
  | beat {st st' : Station} {s s' : Session (Log × ω)} (h : Reaches p s₀ st s)
      (hbeat : Beat p st s st' s') : Reaches p s₀ st' s'

def ask (p : Parties ω) (call : Call) (s : Session (Log × ω)) : Session (Log × ω) :=
  match answer p.logged .caller call s with
  | (some a, s') => s'.note (.asked .caller call a)
  | (none, s') => s'

namespace Reaches

variable {p : Parties ω} {s₀ s : Session (Log × ω)} {st : Station}

theorem asks (h : Reaches p s₀ st s) (call : Call) : Reaches p s₀ st (s.ask p call) := by
  unfold ask
  split
  · next ha => exact h.beat (.call ha)
  · next ha => exact h.beat (.wait ha)

theorem starts (h : Reaches p s₀ .resting s) (hlife : s.life = .idle)
    (hthreaded : s.settings.threaded = true) {st' : Station}
    (hst : .ofCall (start p.logged s).1 = st') : Reaches p s₀ st' (start p.logged s).2 :=
  hst ▸ h.beat (.start hlife hthreaded rfl)

theorem takes (h : Reaches p s₀ .resting s) (hattended : s.mailbox.receiving = true) {st' : Station}
    (hst : .ofTaken (Service.takeNext p.logged s).1 = st') :
    Reaches p s₀ st' (Service.takeNext p.logged s).2 :=
  hst ▸ h.beat (.take hattended rfl)

theorem leaves {cause : Option Panic} (h : Reaches p s₀ (.leaving cause) s) {st' : Station}
    (hst : .ofLeave (Service.leave p.logged cause s).1 = st') :
    Reaches p s₀ st' (Service.leave p.logged cause s).2 :=
  hst ▸ h.beat (.leave rfl)

end Reaches
end Session

namespace Chronicle

/-- Tasks were run, and their runs came back. -/
def Steady (c : Chronicle) : Prop := ∀ o ∈ c.outcomes, o = (.run, .ok ())

/-- Tasks were run, of which the last may have panicked, and then tasks were cancelled. -/
def Wound (c : Chronicle) : Prop :=
  ∃ done last dropped, c.outcomes = done ++ last ++ dropped ∧ (∀ o ∈ done, o = (.run, .ok ())) ∧
    (last = [] ∨ ∃ q, last = [(.run, .error (.panic q))]) ∧ ∀ o ∈ dropped, o = (.cancel, .ok ())

variable {c c' : Chronicle}

theorem Steady.append (h : Steady c) (h' : Steady c') : Steady (c ++ c') := by
  intro o ho
  rw [outcomes_append] at ho
  exact (List.mem_append.mp ho).elim (h o) (h' o)

theorem Steady.wound (h : Steady c) : Wound c := ⟨c.outcomes, [], [], by simp, h, .inl rfl, by simp⟩

theorem Steady.panicked (h : Steady c) {q : Panic}
    (h' : c'.outcomes = [(.run, .error (.panic q))]) : Wound (c ++ c') :=
  ⟨c.outcomes, _, [], by simp [h'], h, .inr ⟨q, rfl⟩, by simp⟩

theorem Wound.clears (h : Wound c) (h' : Clears c') : Wound (c ++ c') := by
  obtain ⟨done, last, dropped, houtcomes, hdone, hlast, hdropped⟩ := h
  refine ⟨done, last, dropped ++ c'.outcomes, by simp [houtcomes], hdone, hlast, fun o ho => ?_⟩
  exact (List.mem_append.mp ho).elim (hdropped o) (h' o)

theorem clears_other (log : Log) : Clears [.other log] := by simp [Clears]

theorem steady_other (log : Log) : Steady [.other log] := by simp [Steady]

end Chronicle

namespace Session

/-- What the chronicle of a session tells as long as its worker stands there. -/
structure Stands (p : Parties ω) (s₀ : Session (Log × ω)) (c : Chronicle) (st : Station)
    (s : Session (Log × ω)) : Prop where
  unfolds : Unfolds p s₀ c s
  tells : ∀ e ∈ c, e.Tells p
  tallied : Tallied s
  waitlist : Waitlist.after {} c.occurrences = some s.waitlist
  unstarted : s.life = .idle → s.mailbox.receiving = false ∧ s.terminated.isSet = false ∧
    ∀ cause, st ≠ .leaving cause
  finished : s.terminated.isSet = true → Finished s ∧ c.Wound
  steady : st = .resting → c.Steady
  wound : st ≠ .stuck → c.Wound

namespace Stands

variable {p : Parties ω} {s₀ s s' : Session (Log × ω)} {c c' : Chronicle} {st : Station}

theorem moves (h : Stands p s₀ c .resting s) {st' : Station}
    (hst : s.life = .idle → ∀ cause, st' ≠ .leaving cause) : Stands p s₀ c st' s where
  unfolds := h.unfolds
  tells := h.tells
  tallied := h.tallied
  waitlist := h.waitlist
  unstarted hidle := ⟨(h.unstarted hidle).1, (h.unstarted hidle).2.1, hst hidle⟩
  finished := h.finished
  steady _ := h.steady rfl
  wound _ := (h.steady rfl).wound

theorem proceeds (h : Stands p s₀ c st s) {new : Log}
    (hnew : Proceeds (fun d => d.isForTasks = false) new s s')
    (hwork : s'.active.work = s.active.work) (hcourier : s'.active.courier = s.active.courier) :
    Stands p s₀ (c ++ [.other new]) st s' where
  unfolds := h.unfolds.other ⟨hnew.log, hnew.calls, hwork, hcourier⟩
  tells e he := by
    rcases List.mem_append.mp he with he | he
    · exact h.tells e he
    · rw [List.mem_singleton.mp he]
      exact hnew.calls
  tallied := hnew.tallied
  waitlist := by
    rw [Chronicle.occurrences_append, Waitlist.after_append, h.waitlist]
    simpa using hnew.waitlist
  unstarted hidle := by
    rw [hnew.receiving, hnew.terminated]
    refine h.unstarted ?_
    rcases hnew.life with hl | ⟨-, hl⟩
    · exact hl.symm.trans hidle
    · simp [hl] at hidle
  finished hset := by
    rw [hnew.terminated] at hset
    obtain ⟨hfinished, hwound⟩ := h.finished hset
    exact ⟨hnew.finished hfinished, hwound.clears (Chronicle.clears_other new)⟩
  steady hst := (h.steady hst).append (Chronicle.steady_other new)
  wound hst := (h.wound hst).clears (Chronicle.clears_other new)

theorem undisturbed (h : Stands p s₀ c st s) (hlog : s'.log = s.log) (hsame : Undisturbed s s')
    (hactive : s'.active = s.active) : Stands p s₀ (c ++ [.other []]) st s' :=
  h.proceeds (.silent h.tallied hlog hsame) (by rw [hactive]) (by rw [hactive])

theorem opens (h : Stands p s₀ c .resting s) (hidle : s.life = .idle) (ho : Opens s s')
    (st' : Station) : ∃ c', Stands p s₀ c' st' s' := by
  have hempty := h.tallied.attended (h.unstarted hidle).1
  have hwaitlist : s.waitlist = {} := by
    rw [Session.waitlist, hempty, h.tallied.registry_of_empty hempty]
  obtain ⟨log, hidles, hafter⟩ := ho.idles
  have hsteady := (h.steady rfl).append (Chronicle.steady_other log)
  refine ⟨c ++ [.other log], h.unfolds.other hidles, ?_, ?_, ?_, ?_, ?_, fun _ => hsteady,
    fun _ => hsteady.wound⟩
  · intro e he
    rcases List.mem_append.mp he with he | he
    · exact h.tells e he
    · rw [List.mem_singleton.mp he]
      exact hidles.calls
  · exact ⟨by simp [ho.tasks, ho.registry], by simp [ho.registry], fun _ => ho.tasks⟩
  · rw [Chronicle.occurrences_append, Waitlist.after_append, h.waitlist, hwaitlist,
      Session.waitlist, ho.tasks, ho.registry]
    simpa using hafter
  · exact fun hl => absurd hl ho.begun
  · exact fun hset => ⟨⟨ho.tasks, ho.begun, .inl (ho.closed hset)⟩, hsteady.wound⟩

theorem begun (h : Stands p s₀ c st s) (hattended : s.mailbox.receiving = true) :
    s.life ≠ .idle := by
  intro hidle
  have hrecv := (h.unstarted hidle).1
  simp [hattended] at hrecv

theorem runs (h : Stands p s₀ c .resting s) {t : Task} {rest : List Request}
    (hattended : s.mailbox.receiving = true) (hqueue : s.mailbox.queue = .task t :: rest) :
    ∃ c', Stands p s₀ c' (.ofTaken (Service.takeNext p.logged s).1)
      (Service.takeNext p.logged s).2 := by
  obtain ⟨y, c', hx, hy, hc, houtcomes, hterminated⟩ := Service.takeNext_task p h.tallied hqueue
  -- nobody has signalled the end while a task waits
  have hunsignalled : s.terminated.isSet = false := by
    by_contra hset
    have hnone := (h.finished (by simpa using hset)).1.tasks
    simp [tasks, hqueue, Request.task?] at hnone
  have hbegun : (Service.takeNext p.logged s).2.life ≠ .idle := by
    rcases hc.life with hl | ⟨-, hl⟩
    · rw [hl]
      exact h.begun hattended
    · simp [hl]
  have hsteady : y = .ok () → c'.Steady := by
    rintro rfl o ho
    rw [houtcomes] at ho
    exact List.mem_singleton.mp ho
  refine ⟨c ++ c', h.unfolds.trans hc.unfolds, ?_, hc.tallied, ?_, fun hl => absurd hl hbegun, ?_,
    ?_, ?_⟩
  · exact fun e he => (List.mem_append.mp he).elim (h.tells e) (hc.tells e)
  · rw [Chronicle.occurrences_append, Waitlist.after_append, h.waitlist]
    exact hc.waitlist
  · simp [hterminated, hunsignalled]
  · rw [hx]
    rcases y with (e | q | _) | _ <;> intro hst
    · cases hst
    · cases hst
    · cases hst
    · exact (h.steady rfl).append (hsteady rfl)
  · rw [hx]
    rcases y with (e | q | _) | _ <;> intro hst
    · exact absurd rfl (hy e)
    · exact (h.steady rfl).panicked houtcomes
    · exact absurd rfl hst
    · exact ((h.steady rfl).append (hsteady rfl)).wound

theorem takes (h : Stands p s₀ c .resting s) {x : Except Stop (Option (Except Panic Bool))}
    (hattended : s.mailbox.receiving = true) (hrun : Service.takeNext p.logged s = (x, s')) :
    ∃ c', Stands p s₀ c' (.ofTaken x) s' := by
  cases hq : s.mailbox.queue with
  | nil =>
    rw [Service.takeNext_nil p.logged hq] at hrun
    cases hrun
    exact ⟨c, h⟩
  | cons request rest =>
    cases hr : request.task? with
    | none =>
      obtain ⟨hactive, log, hlog⟩ := Service.takeNext_other p h.tallied hq hr
      rw [hrun] at hactive hlog
      have hnext := h.proceeds hlog hactive.1 hactive.2
      exact ⟨_, hnext.moves fun hidle =>
        absurd hidle (hnext.begun (hlog.receiving.trans hattended))⟩
    | some t =>
      obtain ⟨rfl⟩ : request = .task t := by
        cases request <;> simp_all [Request.task?]
      have hruns := h.runs hattended hq
      rw [hrun] at hruns
      exact hruns

theorem leaves (h : Stands p s₀ c st s) (hp : p.TearsDownAlone) {cause : Option Panic}
    (hst : st = .leaving cause) {x : Except Stop Unit}
    (hrun : Service.leave p.logged cause s = (x, s')) : ∃ c', Stands p s₀ c' (.ofLeave x) s' := by
  have hready : Ready s := by
    refine ⟨h.tallied, fun hidle => ?_, fun hset => (h.finished hset).1⟩
    exact (h.unstarted hidle).2.2 cause hst
  have hwound : c.Wound := h.wound (by simp [hst])
  have hallows := (Service.empties_leave hp cause).follows s
  rw [hrun] at hallows
  have hbuild : ∀ {c' : Chronicle} {st' : Station}, Chronicled p c' s s' → Ready s' →
      (s'.terminated.isSet = true → c'.Clears) → (st' ≠ .stuck → c'.Clears) → st' ≠ .resting →
      Stands p s₀ (c ++ c') st' s' := by
    intro c' st' hc hs' hset hclears hresting
    refine ⟨h.unfolds.trans hc.unfolds, ?_, hc.tallied, ?_, fun hl => absurd hl hs'.begun,
      fun hterm => ⟨hs'.finished hterm, hwound.clears (hset hterm)⟩,
      fun hst' => absurd hst' hresting,
      fun hst' => hwound.clears (hclears hst')⟩
    · exact fun e he => (List.mem_append.mp he).elim (h.tells e) (hc.tells e)
    · rw [Chronicle.occurrences_append, Waitlist.after_append, h.waitlist]
      exact hc.waitlist
  have hgoes : x ≠ .error .hang → ∃ c', Stands p s₀ c' (.ofLeave x) s' := by
    intro hx
    obtain ⟨c', hc, hs', hclears, -⟩ := hallows.goes hx hready
    refine ⟨_, hbuild hc hs' (fun _ => hclears) (fun _ => hclears) ?_⟩
    rcases x with _ | _ <;> simp [Station.ofLeave]
  rcases x with (e | q | _) | _
  · exact hgoes (by simp)
  · exact hgoes (by simp)
  · -- where it never comes back, it has not signalled its end before it cancelled all that waited
    obtain ⟨c', hc, hs', -, hend⟩ := hallows hready
    refine ⟨_, hbuild hc hs' (fun hset => ?_) (fun hst' => absurd rfl hst')
      (by simp [Station.ofLeave])⟩
    rcases hend with hclears | hunset
    · exact hclears
    · exact absurd (hset.symm.trans hunset) (by simp)
  · exact hgoes (by simp)

theorem beat (h : Stands p s₀ c st s) (hp : p.TearsDownAlone) {st' : Station}
    (hbeat : Beat p st s st' s') : ∃ c', Stands p s₀ c' st' s' := by
  cases hbeat with
  | call ha =>
    obtain ⟨asides, hi⟩ := answer_interlude p _ _ _ _ _ ha
    obtain ⟨new, hnew⟩ := answer_proceeds p h.tallied ha
    exact ⟨_, h.proceeds hnew (by rw [hi.active]) (by rw [hi.active])⟩
  | wait ha =>
    have hi := unanswered_interlude p _ _ _ _ ha
    exact ⟨_, h.proceeds (unanswered_proceeds p h.tallied ha) (by rw [hi.active])
      (by rw [hi.active])⟩
  | late options =>
    have hfiled := requestReconnect_filed s options
    exact ⟨_, h.undisturbed (by rw [Session.log, hfiled.outside, Session.log])
      (requestReconnect_undisturbed s options) hfiled.active⟩
  | claim => exact ⟨_, h.undisturbed rfl ⟨rfl, rfl, rfl, rfl, .inl rfl⟩ rfl⟩
  | probe =>
    have hfiled := sendRequest_filed s .probe
    have hsend := sendRequest_undisturbed s (r := .probe) rfl
    have hsent := h.undisturbed (by rw [Session.log, hfiled.outside, Session.log]) hsend
      hfiled.active
    unfold Service.sendProbe
    rcases hr : s.sendRequest .probe with ⟨_ | _, s₁⟩ <;> rw [hr] at hsent
    · exact ⟨_, hsent.undisturbed rfl ⟨rfl, rfl, rfl, rfl, .inl rfl⟩ rfl⟩
    · exact ⟨_, hsent⟩
  | elsewhere w => exact ⟨_, h.undisturbed rfl ⟨rfl, rfl, rfl, rfl, .inl rfl⟩ rfl⟩
  -- a session that is not started has no tasks, so nothing is lost when its worker begins
  | start hlife hthreaded hrun =>
    have hempty := h.tallied.attended (h.unstarted hlife).1
    exact h.opens hlife (start_opens hlife hthreaded hempty (h.tallied.registry_of_empty hempty)
      (h.unstarted hlife).2.1 hrun) _
  | close hlife hrun =>
    have hempty := h.tallied.attended (h.unstarted hlife).1
    exact h.opens hlife (close_opens hlife hempty (h.tallied.registry_of_empty hempty) hrun) _
  | @drop _ _ x hlife hrun =>
    have hempty := h.tallied.attended (h.unstarted hlife).1
    rcases dropHandle_opens hempty (h.tallied.registry_of_empty hempty) hrun with ho | rfl
    · exact h.opens hlife ho _
    · have hfiled := giveUpHandle_filed s
      have hgiven := h.undisturbed (by rw [Session.log, hfiled.outside, Session.log])
        (giveUpHandle_undisturbed s) hfiled.active
      refine ⟨_, hgiven.moves fun _ cause => ?_⟩
      rcases x with (_ | _ | _) | _ <;> simp [Station.ofCall]
  | take hattended hrun => exact h.takes hattended hrun
  | leave hrun => exact h.leaves hp rfl hrun

end Stands

/-- Whatever happens to a session, and in whatever order, its chronicle can be told. -/
theorem Reaches.stands {p : Parties ω} (hp : p.TearsDownAlone) {id name : String}
    {options : Options} {settings : Settings} {w : ω} {st : Station} {s : Session (Log × ω)}
    (h : Reaches p (create id name options settings (([] : Log), w)) st s) :
    ∃ c, Stands p (create id name options settings (([] : Log), w)) c st s := by
  induction h with
  | refl =>
    refine ⟨[], .refl, by simp, ⟨by simp [create, tasks], by simp [create], fun _ => rfl⟩, rfl,
      fun _ => ⟨rfl, rfl, by simp⟩, by simp [create], ?_, ?_⟩
    · exact fun _ o ho => by simp [Chronicle.outcomes] at ho
    · exact fun _ => ⟨[], [], [], rfl, by simp, .inl rfl, by simp⟩
  | beat _ hbeat ih =>
    obtain ⟨c, hc⟩ := ih
    exact hc.beat hp hbeat

end Session
end DatabaseSession
