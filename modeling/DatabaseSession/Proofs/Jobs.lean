import Mathlib.Data.List.Induction
import DatabaseSession.Proofs.Conduct
import DatabaseSession.Proofs.Ending
import DatabaseSession.Proofs.Signalling

namespace DatabaseSession

open Course Run Session

variable {ω α β : Type} {p : Parties ω} {s s' : Session (Log × ω)}

def Purpose.carryOut (p : Parties ω) : Purpose → Run ω Unit
  | .opening => do
    Link.connect p
    Link.publish p
  | .renewal options => reconnectHere p options
  | .task t => Task.perform p t
  | .probe => Service.handleProbe p
  | .other => pure ()

theorem Session.Inner.ofHeld (s : Session (Log × ω)) (k : Purpose) : Inner s (s.held k) := by
  cases k with
  | opening =>
    have hclosed : Inner s { s with life := .closed } := .ofLife s (by simp)
    exact hclosed.trans (.of_eq rfl)
  | other => exact .refl s
  | renewal _ | task _ | probe => exact .of_eq rfl

/-- The one computation does what the other does, and then only what a session does by itself or to
end. -/
structure Run.Completes (p : Parties ω) (main : Run (Log × ω) α) (m : Run (Log × ω) β) :
    Prop where
  hangs : ∀ {s b}, main s = (.error .hang, b) → (m s).1 = .error .hang
  allows : ∀ {c}, Tends c p → ∀ s, c.Allows (m s).1 (main s).2 (m s).2

namespace Run.Completes

variable {γ : Type} {main : Run (Log × ω) α} {m : Run (Log × ω) β}

theorem refl (m : Run (Log × ω) α) : Completes p m m where
  hangs h := by rw [h]
  allows hc s := hc.allows_refl _ _

theorem bind (h : Completes p main m) {f : β → Run (Log × ω) γ}
    (hf : ∀ {c}, Tends c p → ∀ b, Follows c (f b)) : Completes p main (m >>= f) where
  hangs {s b} hmain := by
    have hm := h.hangs hmain
    rw [bind_apply]
    rcases hr : m s with ⟨stop | a, s₁⟩ <;> rw [hr] at hm <;> cases hm
    rfl
  allows hc s := allows_bind (h.allows hc s) (hf hc)

theorem guarded (h : Completes p main m) : Completes p main (Run.guarded m) where
  hangs {s b} hmain := by
    have hm := h.hangs hmain
    unfold Run.guarded
    rcases hr : m s with ⟨stop | a, s₁⟩ <;> rw [hr] at hm <;> cases hm
    rfl
  allows hc s := allows_guarded (h.allows hc s)

theorem attempt (h : Completes p main m) : Completes p main (Run.attempt m) where
  hangs {s b} hmain := by
    have hm := h.hangs hmain
    unfold Run.attempt
    rcases hr : m s with ⟨stop | a, s₁⟩ <;> rw [hr] at hm <;> cases hm
    rfl
  allows hc s := by
    have hm := h.allows hc s
    unfold Run.attempt
    rcases hr : m s with ⟨(e | q | _) | a, s₁⟩ <;> rw [hr] at hm <;> exact hm

theorem ensuring (h : Completes p main m) {after : Run (Log × ω) Unit}
    (hafter : ∀ {c}, Tends c p → Follows c after) : Completes p main (Run.ensuring m after) where
  hangs {s b} hmain := by
    have hm := h.hangs hmain
    unfold Run.ensuring
    rcases hr : m s with ⟨stop | a, s₁⟩ <;> rw [hr] at hm <;> cases hm
    rfl
  allows hc s := allows_ensuring (h.allows hc s) (hafter hc) hc.stops

theorem onPanic (h : Completes p main m) {after : Run (Log × ω) Unit}
    (hafter : ∀ {c}, Tends c p → Follows c after) : Completes p main (Run.onPanic m after) where
  hangs {s b} hmain := by
    have hm := h.hangs hmain
    unfold Run.onPanic
    rcases hr : m s with ⟨stop | a, s₁⟩ <;> rw [hr] at hm <;> cases hm
    rfl
  allows hc s := allows_onPanic (h.allows hc s) (hafter hc) hc.stops

theorem after_modify (h : Completes p main m) (f : Session (Log × ω) → Session (Log × ω)) :
    Completes p (do modify f; main) (do modify f; m) where
  hangs {s b} hmain := by
    rw [bind_apply, modify_apply] at hmain ⊢
    exact h.hangs hmain
  allows hc s := by
    rw [bind_apply, modify_apply, bind_apply, modify_apply]
    exact h.allows hc (f s)

theorem connecting {f : Except Error Unit → Run (Log × ω) β}
    (hok : Completes p (Link.publish p.logged) (f (.ok ())))
    (herror : ∀ {c}, Tends c p → ∀ e, Follows c (f (.error e))) :
    Completes p (Purpose.opening.carryOut p.logged)
      (Run.attempt (Link.connect p.logged) >>= f) where
  hangs {s b} hmain := by
    rw [Purpose.carryOut, bind_apply] at hmain
    rw [bind_apply, Run.attempt]
    rcases hr : Link.connect p.logged s with ⟨stop | _, s₁⟩ <;> rw [hr] at hmain
    · cases hmain
      rfl
    · exact hok.hangs hmain
  allows {c} hc s := by
    rw [Purpose.carryOut, bind_apply, bind_apply, Run.attempt]
    rcases hr : Link.connect p.logged s with ⟨(e | q | _) | _, s₁⟩
    · exact herror hc e s₁
    · exact hc.panics s₁
    · exact hc.stuck s₁
    · exact hok.allows hc s₁

end Run.Completes

namespace Service

theorem startup_completes :
    Completes p (Purpose.opening.carryOut p.logged) (startup p.logged) :=
  .connecting ((Completes.refl _).bind fun _ _ => follows_pure _) fun hc _ =>
    follows_bind hc.follows_release fun _ =>
      follows_bind (hc.follows_inner fun _ => .of_eq rfl) fun _ => follows_pure _

theorem handleReconnect_completes (options : Option Options) (ticket : Nat) :
    Completes p (reconnectHere p.logged options) (handleReconnect p.logged options ticket) := by
  rw [handleReconnect]
  exact (((Completes.refl _).attempt.after_modify _).onPanic fun hc =>
    hc.follows_reply ticket none).bind fun hc r => hc.follows_reply ticket (some r)

theorem handle_completes (request : Request) :
    Completes p (request.purpose.carryOut p.logged) (handle p.logged request) := by
  cases request with
  | close => exact (Completes.refl (pure ())).bind fun _ _ => follows_pure false
  | reconnect options ticket =>
    exact (handleReconnect_completes options ticket).bind fun _ _ => follows_pure true
  | probe => exact (Completes.refl _).bind fun _ _ => follows_pure true
  | task t =>
    exact ((Completes.refl _).ensuring fun hc => hc.follows_dropTask t).bind fun _ _ =>
      follows_pure true

theorem attendTo_completes (request : Request) :
    Completes p (request.purpose.carryOut p.logged) (attendTo p.logged request) := by
  refine (handle_completes request).guarded.bind fun hc r => ?_
  rcases r with q | _ | _
  · exact follows_bind (hc.follows_leave (some q)) fun _ => follows_pure true
  · exact follows_bind (hc.follows_leave none) fun _ => follows_pure true
  · exact follows_bind (follows_pure ()) fun _ => follows_pure true

theorem launch_completes :
    Completes p (do
      modify (attended true)
      Purpose.opening.carryOut p.logged) (launch p.logged) := by
  refine (startup_completes.guarded.bind fun hc r => ?_).after_modify _
  rcases r with q | e | _
  · exact follows_bind (hc.follows_leave (some q)) fun _ =>
      follows_bind follows_get fun _ => follows_pure _
  · exact follows_bind (hc.follows_exit (follows_pure ())) fun _ => follows_pure _
  · exact follows_bind (hc.follows_inner fun _ => .of_eq rfl) fun _ => follows_pure _

end Service

namespace Session

/-- From this state the session does what is to be done for a purpose, and then only what it does by
itself or to end. -/
structure Serves (p : Parties ω) (k : Purpose) (a : Session (Log × ω)) (x : Except Stop α)
    (s' : Session (Log × ω)) : Prop where
  hangs : (k.carryOut p.logged a).1 = .error .hang → x = .error .hang
  allows : ∀ {c}, Tends c p → c.Allows x (k.carryOut p.logged a).2 s'

namespace Serves

variable {k : Purpose} {a : Session (Log × ω)} {m : Run (Log × ω) α}

theorem ofCompletes (h : Completes p (k.carryOut p.logged) m) (a : Session (Log × ω)) :
    Serves p k a (m a).1 (m a).2 where
  hangs hk := h.hangs (Prod.ext hk rfl)
  allows hc := h.allows hc a

theorem ofOther {x : Except Stop α} (h : ∀ {c}, Tends c p → c.Allows x s s') :
    Serves p .other s x s' where
  hangs hk := by cases hk
  allows := h

theorem map {x : Except Stop α} (h : Serves p k a x s') (f : α → β) :
    Serves p k a (x.map f) s' where
  hangs hk := by
    rw [h.hangs hk]
    rfl
  allows hc := by
    have hx := h.allows hc
    rcases x with (_ | _ | _) | _ <;> exact hx

theorem bind (h : Serves p k a (m s).1 (m s).2) {f : α → Run (Log × ω) β}
    (hf : ∀ {c}, Tends c p → ∀ b, Follows c (f b)) :
    Serves p k a ((m >>= f) s).1 ((m >>= f) s).2 where
  hangs hk := by
    have hm := h.hangs hk
    rw [bind_apply]
    rcases hr : m s with ⟨stop | b, s₁⟩ <;> rw [hr] at hm <;> cases hm
    rfl
  allows hc := allows_bind (h.allows hc) (hf hc)

theorem attempt (h : Serves p k a (m s).1 (m s).2) (f : Except Error α → β) :
    Serves p k a ((f <$> Run.attempt m) s).1 ((f <$> Run.attempt m) s).2 := by
  have hattempt : Serves p k a (Run.attempt m s).1 (Run.attempt m s).2 := by
    refine ⟨fun hk => ?_, fun hc => ?_⟩
    · have hm := h.hangs hk
      unfold Run.attempt
      rcases hr : m s with ⟨stop | b, s₁⟩ <;> rw [hr] at hm <;> cases hm
      rfl
    · have hm := h.allows hc
      unfold Run.attempt
      rcases hr : m s with ⟨(e | q | _) | b, s₁⟩ <;> rw [hr] at hm <;> exact hm
  rw [map_eq_pure_bind]
  exact hattempt.bind fun _ _ => follows_pure _

theorem holding (h : Completes p (k.carryOut p.logged) m) (s : Session (Log × ω)) :
    Serves p k { s with locked := true } (Session.holding m s).1 (Session.holding m s).2 := by
  rw [Session.holding, bind_apply, modify_apply]
  exact .ofCompletes (h.ensuring fun hc => hc.follows_unlock) _

end Serves

theorem assign_inCaller (p : Parties ω) (t : Task) {s : Session ω} (hlife : s.life = .inCaller) :
    assign p t s = holding (Task.perform p t) s := by
  unfold assign
  rw [get_bind_apply, refusal, hlife]
  rfl

/-- A call does what it is for if that is done in the caller. -/
def Performs (p : Parties ω) (k : Purpose) (m : Run (Log × ω) α) (s : Session (Log × ω)) : Prop :=
  Serves p k (s.held k) (m s).1 (m s).2

theorem assign_performs (t : Task) (s : Session (Log × ω)) :
    Performs p (.inCaller s.life (.task t)) (assign p.logged t) s := by
  unfold Purpose.inCaller Performs
  split
  · next hlife =>
    rw [assign_inCaller _ _ hlife]
    exact .holding (.refl _) s
  · next hlife => exact .ofOther fun hc => hc.assign_allows t hlife

theorem submit_performs (t : Task) (s : Session (Log × ω)) :
    Performs p (.inCaller s.life (.task t.keepingEvents)) (submit p.logged t) s := by
  have hassign := assign_performs (p := p) (if s.life = .inCaller then t.keepingEvents else t) s
  have hpurpose : Purpose.inCaller s.life
      (.task (if s.life = .inCaller then t.keepingEvents else t)) =
      Purpose.inCaller s.life (.task t.keepingEvents) := by
    unfold Purpose.inCaller
    split <;> rfl
  rw [hpurpose] at hassign
  unfold submit Performs
  rw [get_bind_apply]
  exact hassign.bind fun _ _ => follows_bind follows_get fun _ => follows_pure _

/-- A kill that is in force is of no consequence to a task that is yet to be run. -/
theorem execute_inCaller (p : Parties ω) (t : Task) {s : Session ω} (hlife : s.life = .inCaller) :
    execute p t s = submit p t s := by
  have hrevived : ({ s with killed := false } : Session ω).life = .inCaller := hlife
  unfold execute submit
  rw [bind_apply, modify_apply]
  dsimp only
  rw [get_bind_apply, get_bind_apply, bind_apply, bind_apply, assign_inCaller _ _ hrevived,
    assign_inCaller _ _ hlife]
  rfl

theorem execute_performs (t : Task) (s : Session (Log × ω)) :
    Performs p (.inCaller s.life (.task t.keepingEvents)) (execute p.logged t) s := by
  unfold Performs
  by_cases hlife : s.life = .inCaller
  · rw [execute_inCaller _ _ hlife]
    exact submit_performs t s
  · have hsubmit := submit_performs (p := p) t { s with killed := false }
    unfold execute
    rw [bind_apply, modify_apply]
    unfold Performs Purpose.inCaller at *
    rw [if_neg hlife] at hsubmit ⊢
    have hrevived : Inner s { s with killed := false } := .of_eq rfl
    exact .ofOther fun hc => (hsubmit.allows hc).after (hc.inner hrevived)

theorem reconnect_performs (options : Option Options) {s : Session (Log × ω)}
    (hlife : s.life ≠ .threaded) :
    Performs p (.inCaller s.life (.renewal options)) (reconnect p.logged options) s := by
  unfold Purpose.inCaller Performs
  split
  · next hl =>
    rw [reconnect_inCaller _ _ hl]
    exact .holding (.refl _) s
  · next hl =>
    refine .ofOther fun hc => ?_
    unfold reconnect
    rw [get_bind_apply, refusal]
    cases hcase : s.life with
    | idle | closed => exact hc.allows_refl _ s
    | inCaller => exact absurd hcase hl
    | threaded => exact absurd hcase hlife

theorem startInCaller_completes :
    Completes p (Purpose.opening.carryOut p.logged) (startInCaller p.logged) := by
  refine .connecting ((Completes.refl _).bind fun hc _ => ?_) fun hc e => ?_
  · exact hc.follows_inner fun s => .ofLife s (by simp)
  · exact follows_bind hc.follows_release fun _ =>
      follows_bind (hc.follows_inner fun _ => .of_eq rfl) fun _ =>
        follows_bind hc.follows_drop fun _ => follows_raise e

theorem enter_completes (threaded : Bool) :
    Completes p (do
      modify (attended threaded)
      Purpose.opening.carryOut p.logged) (enter p.logged threaded) := by
  cases threaded with
  | true =>
    refine Completes.bind (Service.launch_completes) fun hc r => ?_
    cases r with
    | ok _ => exact hc.follows_inner fun s => .ofLife s (by simp)
    | error e => exact follows_raise e
  | false => exact startInCaller_completes.onPanic fun hc => hc.follows_drop

theorem start_performs (hlife : s.life = .idle) : Performs p .opening (start p.logged) s := by
  have henter := (enter_completes (p := p) s.settings.threaded).ensuring fun hc =>
    hc.follows_unlock
  unfold Performs
  rw [start_idle _ hlife, holding, bind_apply, modify_apply]
  exact ⟨fun hk => henter.hangs (Prod.ext hk rfl), fun hc => henter.allows hc _⟩

theorem call_performs (c : Call) (hown : s.life = .threaded → c.awaitsWorker = false) :
    Performs p (c.purpose s.life) (perform p.logged c) s := by
  have hanswered : Performs p .other (answered p.logged c) s :=
    .ofOther fun hc => hc.follows_answered c s
  -- besides a start, a reconnect and a task, no call has anything to carry out
  cases c with
  | start =>
    rw [Call.purpose, perform]
    split
    · next hl => exact (start_performs hl).attempt _
    · next hl =>
      obtain ⟨e, he⟩ := start_refused p.logged hl
      refine Serves.attempt (.ofOther fun hc => ?_) _
      rw [he]
      exact hc.allows_refl _ s
  | close =>
    have hl : s.life ≠ .threaded := fun hl => by cases hown hl
    exact Serves.attempt (.ofOther fun hc => hc.close_allows hl) _
  | reconnect options =>
    have hl : s.life ≠ .threaded := fun hl => by cases hown hl
    exact (reconnect_performs options hl).attempt _
  | queueReconnect options =>
    unfold Performs
    rw [perform, get_bind_apply]
    split
    · next hl => exact (reconnect_performs options (by simp [hl])).attempt _
    · next hl =>
      rw [Call.purpose, Purpose.inCaller, if_neg hl]
      exact hanswered
  | execute t => exact (execute_performs t s).attempt _
  | submit t => exact (submit_performs t s).attempt _
  | assign t => exact (assign_performs t s).attempt _
  | dropHandle =>
    have hdrop : Performs p .other (dropHandle p.logged) s :=
      .ofOther fun hc => hc.follows_dropHandle s
    exact hdrop.bind fun _ _ => follows_pure _
  | isOpen | waitTerminated | awaitReconnect | kill | isKilled | cancel | isCancelled | pending
  | status | info | defaultSchema | failures | cloneHandle => exact hanswered

theorem step_serves (s : Session (Log × ω)) :
    Serves p s.due (Service.unqueued s s.mailbox.queue.tail) (Service.step p.logged s).1
      (Service.step p.logged s).2 := by
  unfold due
  cases hq : s.mailbox.queue with
  | nil =>
    rw [Service.step_empty _ hq]
    exact .ofOther fun hc => hc.inner (.of_eq rfl)
  | cons request rest =>
    rw [Service.step_cons _ hq]
    exact .ofCompletes (Service.attendTo_completes request) _

namespace Deed

variable {k : Purpose} {a : Session (Log × ω)} {x : Except Stop Unit}

theorem begins (h : Deed p s k a x s') : Inner s a := by
  cases h with
  | call _ _ => exact .ofHeld s _
  | work _ _ => exact .of_eq rfl
  | closing _ | asking _ | tick | elsewhere _ => exact .refl s

/-- Every deed is done for its purpose, and beyond that a session does only what is its own
business. -/
theorem serves (h : Deed p s k a x s') : Serves p k a x s' := by
  have hinner : Inner s s' → Serves p .other s (.ok () : Except Stop Unit) s' := fun hs =>
    .ofOther fun hc => hc.inner hs
  cases h with
  | call hown hrun =>
    have hcall := call_performs (p := p) _ hown
    unfold Performs at hcall
    rw [hrun] at hcall
    exact hcall.map _
  | work _ hrun =>
    have hstep := step_serves (p := p) s
    rw [hrun] at hstep
    exact hstep.map _
  | closing hlife => exact hinner (.ofFiled (requestClose_filed s hlife))
  | asking options => exact hinner (.ofFiled (requestReconnect_filed s options))
  | tick => exact hinner (.ofTick s)
  | elsewhere w => exact hinner (.ofInterlude (.ofOutside s w))

theorem carriesOut (h : Deed p s k a x s') (hx : x ≠ .error .hang) :
    ∃ y b, k.carryOut p.logged a = (y, b) ∧ y ≠ .error .hang ∧
      ∀ {c}, Tends c p → c.Goes b s' :=
  ⟨_, _, rfl, fun hy => hx (h.serves.hangs hy), fun hc => (h.serves.allows hc).goes hx⟩

theorem goes (h : Deed p s k a x s') (hx : x ≠ .error .hang) {c : Course (Log × ω)}
    (hc : Tends c p) (hk : Follows c (k.carryOut p.logged)) : c.Goes s s' := by
  obtain ⟨y, b, hcarry, hy, hafter⟩ := h.carriesOut hx
  exact c.trans (c.trans (hc.inner h.begins) (hk.goes hcarry hy)) (hafter hc)

end Deed

theorem Lives.goes {life : List (Episode ω)} {c : Course (Log × ω)} (h : Lives s life s')
    (hdeeds : ∀ e ∈ life, ∀ {x}, Deed e.parties e.before e.purpose e.start x e.after →
      x ≠ .error .hang → c.Goes e.before e.after) : c.Goes s s' := by
  induction h with
  | refl => exact c.refl s
  | step _ hdeed hx ih =>
    refine c.trans (ih fun e he => hdeeds e (List.mem_append_left _ he)) ?_
    exact hdeeds _ (List.mem_append_right _ (List.mem_singleton_self _)) hdeed hx

end Session

namespace Service

inductive Loses (p : Parties ω) (s s' : Session (Log × ω)) : Prop where
  | intro {e : Error} (hrun : party p.logged p.logged.backend.ping s = (.error (.error e), s'))
      (hlost : e.losesConnection = true)

theorem follows_handleProbe {c : Course (Log × ω)} (hc : Tends c p) (hping : c.Permits p .ping)
    (hrestore : ∀ {s₀ s : Session (Log × ω)}, Loses p s₀ s → c.Goes s₀ s →
      c.Allows (Link.restore p.logged s).1 s₀ (Link.restore p.logged s).2) :
    Follows c (handleProbe p.logged) := by
  refine follows_bind (hc.follows_inner fun _ => .of_eq rfl) fun _ s => ?_
  have hpinged : c.Allows (party p.logged p.logged.backend.ping s).1 s
      (party p.logged p.logged.backend.ping s).2 := hping p.backend.ping s
  unfold Link.checkAlive
  rw [get_bind_apply]
  split
  · exact c.refl s
  · rw [bind_apply, attempt]
    rcases hr : party p.logged p.logged.backend.ping s with ⟨(e | q | _) | _, s₁⟩ <;>
      rw [hr] at hpinged <;> dsimp only
    · split
      · next hlost =>
        exact allows_bind (hrestore (.intro hr hlost) hpinged) fun _ => follows_pure ()
      · exact hpinged
    all_goals exact hpinged

end Service

theorem Session.none_or_last (Q : Episode ω → Prop) (life : List (Episode ω)) :
    (∀ e ∈ life, ¬ Q e) ∨
      ∃ earlier e later, life = earlier ++ e :: later ∧ Q e ∧ ∀ d ∈ later, ¬ Q d := by
  induction life using List.reverseRecOn with
  | nil => exact .inl (by simp)
  | append_singleton life a ih =>
    by_cases ha : Q a
    · exact .inr ⟨life, a, [], rfl, ha, by simp⟩
    · rcases ih with hnone | ⟨earlier, e, later, rfl, he, hnone⟩
      · refine .inl fun d hd => ?_
        rcases List.mem_append.mp hd with hd | hd
        · exact hnone d hd
        · rwa [List.mem_singleton.mp hd]
      · refine .inr ⟨earlier, e, later ++ [a], by simp, he, fun d hd => ?_⟩
        rcases List.mem_append.mp hd with hd | hd
        · exact hnone d hd
        · rwa [List.mem_singleton.mp hd]

theorem Duty.isApart_of_isTeardown {d : Duty} (h : d.isTeardown = true) : d.isApart = true := by
  cases d <;> first | rfl | cases h

theorem Session.apart_tends : Tends (apart ω) p where
  inner h := h.apart
  teardown _ hd := apart_permits (Duty.isApart_of_isTeardown hd)
  cancels := Task.apart_cancel
  panics := Apart.refl
  stuck := Apart.refl
  stops h := h

theorem Run.bind_get_runs {m : Run ω α} {f : Session ω → β} {s s' : Session ω}
    {x : Except Stop β} (hrun : (do let _ ← m; return f (← get)) s = (x, s'))
    (hx : x ≠ .error .hang) : ∃ y, m s = (y, s') ∧ y ≠ .error .hang := by
  rw [bind_apply] at hrun
  rcases hms : m s with ⟨stop | a, s₁⟩ <;> rw [hms] at hrun <;> cases hrun
  · exact ⟨_, rfl, by simpa using hx⟩
  · exact ⟨_, rfl, by simp⟩

namespace Service

theorem startup_made (hrun : startup p.logged s = (.ok (.ok ()), s')) :
    Purpose.opening.carryOut p.logged s = (.ok (), s') := by
  rw [startup, bind_apply, attempt] at hrun
  rw [Purpose.carryOut, bind_apply]
  rcases hr : Link.connect p.logged s with ⟨(e | q | _) | _, s₁⟩ <;> rw [hr] at hrun <;>
    dsimp only at hrun
  · obtain ⟨_, _, -, hrun⟩ := exists_of_bind_ok hrun
    cases hrun
  · cases hrun
  · cases hrun
  · obtain ⟨_, _, hpublish, hrun⟩ := exists_of_bind_ok hrun
    cases hrun
    exact hpublish

/-- Unless the first connect of a session is made and made known, its worker is gone. -/
theorem launch_made {x : Except Stop (Except Error Unit)} (hrun : launch p.logged s = (x, s'))
    (hx : x ≠ .error .hang) (hs : Retired s) :
    (∃ b, Purpose.opening.carryOut p.logged (attended true s) = (.ok (), b)) ∨
      Vacant s' := by
  have hretired := (launch_assured p hrun hx hs).retired
  have hstops := stops_startup p.logged (attended true s)
  rw [launch, bind_apply, modify_apply] at hrun
  change (guarded (startup p.logged) >>= _) (attended true s) = (x, s') at hrun
  rw [bind_apply, guarded] at hrun
  rcases hstart : startup p.logged (attended true s) with ⟨(e | q | _) | e | _, s₁⟩ <;>
    rw [hstart] at hrun hstops <;> dsimp only at hrun
  · exact absurd rfl (hstops _ rfl e)
  · obtain ⟨y, hexit, hy⟩ := bind_get_runs hrun hx
    exact .inr ⟨hretired, exit_unattended
      (stops_ensuring (unfailing_hang rfl) (stops_panic q) (stops_windUp p.logged)) hexit hy⟩
  · cases hrun
    exact absurd rfl hx
  · obtain ⟨y, hexit, hy⟩ := bind_pure_runs hrun hx
    exact .inr ⟨hretired, exit_unattended (stops_pure ()) hexit hy⟩
  · exact .inl ⟨s₁, startup_made hstart⟩

end Service

namespace Session

theorem startInCaller_made {x : Except Stop Unit} (hrun : startInCaller p.logged s = (x, s'))
    (hx : x ≠ .error .hang) (hs : Vacant s) :
    (∃ b, Purpose.opening.carryOut p.logged s = (.ok (), b)) ∨ Vacant s' := by
  have hkeeps : ∀ {m : Run (Log × ω) Unit}, Follows (steady (Log × ω)) m →
      Follows (keeping Vacant) m := keeping_of_steady vacant_stable
  have hconnect := hkeeps (steady_of_inUse (Link.inUse_connect p)) s
  rw [startInCaller, bind_apply, attempt] at hrun
  rw [Purpose.carryOut, bind_apply]
  rcases hr : Link.connect p.logged s with ⟨(e | q | _) | _, s₁⟩ <;> rw [hr] at hrun hconnect <;>
    dsimp only at hrun
  · have hfailed : Follows (keeping Vacant) (do
        Link.release p.logged
        modify fun s => { s with terminated := s.terminated.set }
        Link.drop p.logged
        raise e : Run (Log × ω) Unit) :=
      follows_bind (hkeeps (Link.steady_release p)) fun _ =>
        follows_bind (follows_modify fun _ h => h) fun _ =>
          follows_bind (hkeeps (Link.steady_drop p)) fun _ => follows_raise e
    exact .inr (hfailed.goes hrun hx (hconnect hs))
  · cases hrun
    exact .inr (hconnect hs)
  · cases hrun
    exact absurd rfl hx
  · have hpublish := hkeeps (steady_of_inUse (Link.inUse_publish p)) s₁
    rw [bind_apply] at hrun
    dsimp only
    rcases hr₂ : Link.publish p.logged s₁ with ⟨(e | q | _) | _, s₂⟩ <;> rw [hr₂] at hrun hpublish
    case ok => exact .inl ⟨s₂, rfl⟩
    all_goals
      cases hrun
      first | exact absurd rfl hx | exact .inr (hpublish (hconnect hs))

theorem enter_made {threaded : Bool} {x : Except Stop Unit}
    (hrun : enter p.logged threaded s = (x, s')) (hx : x ≠ .error .hang) (hs : Vacant s) :
    (∃ b, Purpose.opening.carryOut p.logged (attended threaded s) = (.ok (), b)) ∨ Vacant s' := by
  cases threaded with
  | true =>
    rw [enter, if_pos rfl, bind_apply] at hrun
    rcases hlaunch : Service.launch p.logged s with ⟨stop | e | _, s₁⟩ <;> rw [hlaunch] at hrun <;>
      cases hrun
    · exact Service.launch_made hlaunch (by simpa using hx) hs.1
    · exact Service.launch_made hlaunch (by simp) hs.1
    · exact (Service.launch_made hlaunch (by simp) hs.1).imp_right fun h => ⟨.inr rfl, h.2⟩
  | false =>
    have hdrop := keeping_of_steady vacant_stable (Link.steady_drop p)
    rw [enter, if_neg (by simp), onPanic] at hrun
    rcases hcaller : startInCaller p.logged s with ⟨(e | q | _) | _, s₁⟩ <;>
      rw [hcaller] at hrun <;> dsimp only at hrun
    case error.panic =>
      refine (startInCaller_made hcaller (by simp) hs).imp_right fun h => ?_
      have hvacant := hdrop s₁
      rcases hr : Link.drop p.logged s₁ with ⟨(_ | _ | _) | _, s₂⟩ <;> rw [hr] at hrun hvacant <;>
        cases hrun <;> exact hvacant h
    all_goals
      cases hrun
      first | exact absurd rfl hx | exact startInCaller_made hcaller (by simp) hs

/-- Unless the first connect of a session is made and made known, nobody is left to work in it. -/
theorem start_made {x : Except Stop Unit} (hrun : start p.logged s = (x, s'))
    (hx : x ≠ .error .hang) (hlife : s.life = .idle) (hworker : Unattended s) :
    (∃ b, Purpose.opening.carryOut p.logged (s.held .opening) = (.ok (), b)) ∨ Vacant s' := by
  rw [start_idle _ hlife] at hrun
  obtain ⟨s₁, henter, rfl⟩ := holding_runs hrun hx
  exact (enter_made henter hx ⟨.inl rfl, hworker⟩).imp_right fun h => h

end Session
end DatabaseSession
