import DatabaseSession.Proofs.Teardown

namespace DatabaseSession

open Course Run Session

variable {ω α : Type}

namespace Session

/-- A session that its owner has to tear down: not started, or run in the caller. -/
structure Alone (s : Session (Log × ω)) : Prop extends Held s where
  life : s.life = .idle ∨ s.life = .inCaller
  unattended : Unattended s
  unsignalled : s.terminated.isSet = false

/-- A session that its worker has to tear down. If it is closed, the worker has been told. -/
structure Served (s : Session (Log × ω)) : Prop extends Held s where
  retired : Retired s
  attended : s.mailbox.receiving = true
  unsignalled : s.terminated.isSet = false
  closing : s.life = .closed → .close ∈ s.mailbox.queue

/-- A session that is about to make its first connect, with a worker or without. -/
structure Entering (receiving : Bool) (s : Session (Log × ω)) : Prop extends Held s where
  life : s.life = .closed
  attended : s.mailbox.receiving = receiving
  unsignalled : s.terminated.isSet = false

/-- A session that is torn down and has nobody left. -/
structure Over (hooks : Nat) (s : Session (Log × ω)) : Prop extends Gone hooks s where
  retired : Retired s
  unattended : Unattended s

structure Closing (s : Session (Log × ω)) : Prop extends Served s where
  told : .close ∈ s.mailbox.queue

variable {s s' : Session (Log × ω)} {hooks : Nat}

theorem Alone.inUse (h : Alone s) (huse : InUse s s') : Alone s' where
  toHeld := h.toHeld.inUse huse
  life := by
    rcases huse.life with hl | ⟨hl, _⟩
    · rw [hl]
      exact h.life
    · rcases h.life with h | h <;> simp [h] at hl
  unattended := huse.receiving.trans h.unattended
  unsignalled := by rw [huse.terminated]; exact h.unsignalled

theorem Entering.inUse {receiving : Bool} (h : Entering receiving s) (huse : InUse s s') :
    Entering receiving s' where
  toHeld := h.toHeld.inUse huse
  life := by
    rcases huse.life with hl | ⟨hl, _⟩
    · exact hl.trans h.life
    · simp [h.life] at hl
  attended := huse.receiving.trans h.attended
  unsignalled := by rw [huse.terminated]; exact h.unsignalled

theorem Served.inUse (h : Served s) (huse : InUse s s') : Served s' where
  toHeld := h.toHeld.inUse huse
  retired := retired_stable.attends huse.toAttends h.retired
  attended := huse.receiving.trans h.attended
  unsignalled := by rw [huse.terminated]; exact h.unsignalled
  closing := by
    intro hclosed
    rcases huse.life with hl | ⟨_, _, htold⟩
    · exact huse.queue _ (h.closing (hl.symm.trans hclosed))
    · exact htold h.attended

theorem Closing.inUse (h : Closing s) (huse : InUse s s') : Closing s' :=
  ⟨h.toServed.inUse huse, huse.queue _ h.told⟩

theorem Quiet.calls (h : Quiet s s') : Log.calls s'.log = Log.calls s.log := by
  obtain ⟨new, hlog, hnew⟩ := h.log
  have hnone : Log.calls new = [] := List.eq_nil_iff_forall_not_mem.mpr hnew
  rw [hlog, Log.calls_append, hnone, List.append_nil]

theorem Over.quiet (h : Over hooks s) (hq : Quiet s s') : Over hooks s' where
  released := hq.released.trans h.released
  log := by
    obtain ⟨new, hlog, hnew⟩ := hq.log
    rw [hlog]
    exact h.log.append fun d hd => (hnew d hd).elim
  retired := retired_stable.attends hq.toAttends h.retired
  unattended := hq.receiving.trans h.unattended

end Session

namespace Link

theorem follows_release {c : Course (Log × ω)} {p : Parties ω}
    (hmarks : ∀ s, c.Goes s { s with link := { s.link with released := true } })
    (hcloses : ∀ i, ∀ hook ∈ p.hooks, Follows c (party p.logged (hook.onClose.logged (.onClose i))))
    (hreleases : Follows c (party p.logged (p.backend.release.logged .release))) :
    Follows c (release p.logged) := by
  have hmark : Follows c (modify fun s => { s with link := { s.link with released := true } } :
      Run (Log × ω) Unit) := follows_modify hmarks
  have hteardown : Follows c (p.logged.hooks.forM fun hook =>
      always (party p.logged hook.onClose)) := by
    refine follows_forM _ fun hook hmem => ?_
    obtain ⟨i, hi, rfl⟩ := List.mem_mapIdx.mp hmem
    exact follows_always (hcloses i _ (List.getElem_mem hi))
  intro s
  unfold release
  rw [get_bind_apply]
  split
  · exact c.refl s
  · exact follows_bind hmark (fun _ => follows_bind hteardown fun _ => follows_always hreleases) s

theorem follows_drop {c : Course (Log × ω)} {p : Parties ω}
    (hrelease : Follows c (release p.logged))
    (hdisposes : Follows c (party p.logged (p.backend.dispose.logged .dispose)))
    (hstop : ∀ {a b}, c.Panics a b → c.Sticks a b) : Follows c (drop p.logged) :=
  follows_ensuring hrelease (follows_always hdisposes) hstop

end Link

namespace Service

/-- A request is dealt with once it is off the queue. -/
def attendTo (p : Parties ω) (request : Request) : Run ω Bool := do
  match ← guarded (handle p request) with
  | .ok true => return true
  | .ok false =>
    leave p none
    return true
  | .error q =>
    leave p (some q)
    return true

def unqueued (s : Session ω) (rest : List Request) : Session ω :=
  { s with mailbox := { s.mailbox with queue := rest } }

theorem follows_dequeue {c : Course ω} (hout : ∀ s rest, c.Goes s (unqueued s rest)) :
    Follows c (dequeue : Run ω (Option Request)) := by
  intro s
  unfold dequeue
  rw [get_bind_apply]
  cases s.mailbox.queue with
  | nil => exact c.refl s
  | cons request rest => exact hout s rest

theorem follows_emptyQueue {c : Course ω} {p : Parties ω} (hstuck : ∀ s, c.Sticks s s)
    (hout : ∀ s rest, c.Goes s (unqueued s rest)) (hreply : ∀ ticket r, Follows c (reply ticket r))
    (hdiscard : ∀ t, Follows c (discardTask p t)) (patience : Nat) :
    Follows c (emptyQueue p patience) := by
  induction patience with
  | zero => exact follows_hang hstuck
  | succ patience ih =>
    refine follows_bind (follows_dequeue hout) fun r => ?_
    rcases r with _ | t | ⟨options, ticket⟩ | _ | _
    · exact follows_pure ()
    · exact follows_bind (hdiscard t) fun _ => ih
    · exact follows_bind follows_get fun _ => follows_bind (hreply ticket _) fun _ => ih
    · exact ih
    · exact ih

theorem takeNext_cons (p : Parties ω) {s : Session ω} {request : Request} {rest : List Request}
    (h : s.mailbox.queue = request :: rest) :
    takeNext p s = (do return some (← guarded (handle p request)) : Run ω _) (unqueued s rest) := by
  unfold takeNext dequeue
  rw [bind_apply, get_bind_apply, h]
  rfl

theorem takeNext_nil (p : Parties ω) {s : Session ω} (h : s.mailbox.queue = []) :
    takeNext p s = (.ok none, s) := by
  unfold takeNext dequeue
  rw [bind_apply, get_bind_apply, h]
  rfl

theorem step_empty (p : Parties ω) {s : Session ω} (h : s.mailbox.queue = []) :
    step p s = (.ok false, s) := by
  unfold step
  rw [bind_apply, takeNext_nil p h]
  rfl

theorem step_cons (p : Parties ω) {s : Session ω} {request : Request} {rest : List Request}
    (h : s.mailbox.queue = request :: rest) :
    step p s = attendTo p request (unqueued s rest) := by
  unfold step attendTo
  rw [bind_apply, takeNext_cons p h, bind_apply, bind_apply]
  rcases guarded (handle p request) (unqueued s rest) with ⟨_ | _ | _ | _, s₁⟩ <;> rfl

theorem windUp_over (p : Parties ω) :
    Triple (fun s => Held s ∧ Retired s) (windUp p.logged) fun x s =>
      (∃ a, x = .ok a) ∧ Over p.hooks.length s :=
  triple_mono (windUp_triple p) (fun _ hs => hs) fun _ _ h => ⟨h.1, h.2.1, h.2.2.1, h.2.2.2⟩

theorem exit_over (p : Parties ω) {P : Session (Log × ω) → Prop} {m : Run (Log × ω) Unit}
    (hm : Triple P m fun _ s => (Held s ∨ Gone p.hooks.length s) ∧ Retired s)
    (hstop : Stops Unfailing m) :
    Triple P (exit p.logged m) fun x s => (∃ a, x = .ok a) ∧ Over p.hooks.length s :=
  triple_mono (exit_triple p hm hstop) (fun _ hs => hs) fun _ _ h =>
    ⟨h.1, h.2.1, h.2.2.1, h.2.2.2⟩

/-- The worker that is told to stop tears all down, and so does one that panics on its way out. -/
theorem leave_over (p : Parties ω) (cause : Option Panic) :
    Triple (fun s => Held s ∧ Retired s) (leave p.logged cause) fun x s =>
      (∃ a, x = .ok a) ∧ Over p.hooks.length s := by
  cases cause with
  | none =>
    refine exit_over p ?_ (stops_onPanic (unfailing_hang rfl) (stops_windUp p.logged))
    -- it does not panic when it winds up, so there is no second time
    refine triple_mono (triple_onPanic (R := Over p.hooks.length) (windUp_over p) fun q => ?_)
      (fun _ hs => hs) fun x s h => ?_
    · exact triple_mono (windUp_over p) (fun s hs => nomatch hs.1) fun x s h => h.2
    · rcases x with (_ | _ | _) | _
      · exact ⟨.inr h.2.toGone, h.2.retired⟩
      · exact ⟨.inr h.toGone, h.retired⟩
      · exact ⟨.inr h.2.toGone, h.2.retired⟩
      · exact ⟨.inr h.2.toGone, h.2.retired⟩
  | some q =>
    refine exit_over p (triple_ensuring (triple_stop _ fun _ hs => hs) ?_)
      (stops_ensuring (unfailing_hang rfl) (stops_panic q) (stops_windUp p.logged))
    exact triple_mono (windUp_over p) (fun _ hs => hs) fun x s h => ⟨.inr h.2.toGone, h.2.retired⟩

theorem attendTo_close (p : Parties ω) :
    Triple (fun s => Held s ∧ Retired s) (attendTo p.logged .close) fun x s =>
      x = .ok true ∧ Over p.hooks.length s := by
  change Triple _ (leave p.logged none >>= fun _ => pure true) _
  exact triple_value_bind (leave_over p none) fun _ => triple_pure true fun _ hs => ⟨rfl, hs⟩

/-- A state of a session with a worker that lasts until the worker is through. -/
structure Enduring (S : Session (Log × ω) → Prop) : Prop where
  served : ∀ {s}, S s → Served s
  inUse : ∀ {s s'}, S s → InUse s s' → S s'
  unqueued : ∀ {s request rest}, S s → s.mailbox.queue = request :: rest → request ≠ .close →
    S (unqueued s rest)

theorem served_enduring : Enduring (Served : Session (Log × ω) → Prop) where
  served h := h
  inUse h huse := h.inUse huse
  unqueued := by
    intro s request rest h hq hclose
    refine ⟨⟨h.released, h.log⟩, h.retired, h.attended, h.unsignalled, fun hclosed => ?_⟩
    have hmem := h.closing hclosed
    rw [hq] at hmem
    exact (List.mem_cons.mp hmem).resolve_left hclose.symm

theorem closing_enduring : Enduring (Closing : Session (Log × ω) → Prop) where
  served h := h.toServed
  inUse h huse := h.inUse huse
  unqueued := by
    intro s request rest h hq hclose
    have hmem := h.told
    rw [hq] at hmem
    exact ⟨served_enduring.unqueued h.toServed hq hclose,
      (List.mem_cons.mp hmem).resolve_left hclose.symm⟩

variable {S : Session (Log × ω) → Prop}

/-- Whatever a request comes to, the session is served on, or it is over. -/
theorem attendTo_triple (p : Parties ω) (request : Request) (hS : Enduring S) :
    Triple S (attendTo p.logged request) fun x s =>
      x = .ok true ∧ (S s ∨ Over p.hooks.length s) := by
  have hhandle : Triple S (guarded (handle p.logged request)) fun _ s => S s := by
    refine triple_mono (triple_guarded (triple_of_follows (inUse_handle p request)
      fun huse hs => hS.inUse hs huse)) (fun _ hs => hs) fun x s h => ?_
    rcases x with _ | _ | _ <;> exact h
  have hexit : ∀ {m : Run (Log × ω) Unit},
      (Triple (fun s => Held s ∧ Retired s) m fun x s =>
        (∃ a, x = .ok a) ∧ Over p.hooks.length s) →
      Triple S (m >>= fun _ => pure true) fun x s =>
        x = .ok true ∧ (S s ∨ Over p.hooks.length s) := fun hm =>
    triple_value_bind (triple_mono hm
      (fun _ hs => ⟨(hS.served hs).toHeld, (hS.served hs).retired⟩) fun _ _ h => h) fun _ =>
      triple_pure true fun _ hs => ⟨rfl, .inr hs⟩
  refine triple_value_bind (triple_value hhandle (stops_guarded (stops_handle p.logged request)))
    fun r => ?_
  rcases r with q | _ | _
  · exact hexit (leave_over p (some q))
  · exact hexit (leave_over p none)
  · exact triple_pure true fun _ hs => ⟨rfl, .inl hs⟩

theorem step_triple (p : Parties ω) (hS : Enduring S) :
    Triple S (step p.logged) fun x s =>
      x = .ok true ∧ (S s ∨ Over p.hooks.length s) ∨
        x = .ok false ∧ S s ∧ s.mailbox.queue = [] := by
  intro s x s' hr hx
  cases hq : s.mailbox.queue with
  | nil =>
    rw [step_empty _ hq] at hr
    cases hr
    exact ⟨[], by simp, fun _ hs => .inr ⟨rfl, hs, hq⟩⟩
  | cons request rest =>
    rw [step_cons _ hq] at hr
    by_cases hclose : request = .close
    · subst hclose
      obtain ⟨new, hlog, hnew⟩ := attendTo_close p _ x s' hr hx
      refine ⟨new, hlog, fun ho hs => ?_⟩
      have hserved := hS.served hs
      obtain ⟨hok, hover⟩ := hnew ho ⟨⟨hserved.released, hserved.log⟩, hserved.retired⟩
      exact .inl ⟨hok, .inr hover⟩
    · obtain ⟨new, hlog, hnew⟩ := attendTo_triple p request hS _ x s' hr hx
      exact ⟨new, hlog, fun ho hs => .inl (hnew ho (hS.unqueued hs hq hclose))⟩

theorem settle_triple (p : Parties ω) (hS : Enduring S) (patience : Nat) :
    Triple (fun s => S s ∨ Over p.hooks.length s) (settle p.logged patience) fun x s =>
      (∃ a, x = .ok a) ∧ (S s ∧ s.mailbox.queue = [] ∨ Over p.hooks.length s) := by
  -- a worker that takes requests serves the session, one that does not has torn it down
  induction patience with
  | zero => exact triple_hang
  | succ patience ih =>
    refine triple_get fun s => ?_
    split
    · next hrecv =>
      refine triple_mono (P := S) (triple_bind (step_triple p hS) (fun b => ?_) ?_) ?_
        fun _ _ h => h
      · cases b with
        | true =>
          refine triple_mono ih (fun s' hs => ?_) fun _ _ h => h
          rcases hs with ⟨-, hs⟩ | ⟨hb, -⟩
          · exact hs
          · cases hb
        | false =>
          refine triple_pure () fun s' hs => ⟨⟨_, rfl⟩, ?_⟩
          rcases hs with ⟨hb, -⟩ | ⟨-, hs⟩
          · cases hb
          · exact .inl hs
      · rintro stop s' (⟨hb, -⟩ | ⟨hb, -⟩) <;> cases hb
      · rintro s' ⟨rfl, hs⟩
        refine hs.resolve_right fun hover => ?_
        rw [hover.unattended] at hrecv
        cases hrecv
    · next hrecv =>
      refine triple_pure () ?_
      rintro s' ⟨rfl, hs⟩
      refine ⟨⟨_, rfl⟩, .inr (hs.resolve_left fun h => hrecv (hS.served h).attended)⟩

theorem stops_startup (p : Parties ω) : Stops Unfailing (startup p) := by
  refine stops_bind (stops_attempt _) fun r => ?_
  cases r with
  | ok _ => exact stops_bind (Link.stops_publish p) fun _ => stops_pure _
  | error e =>
    exact stops_bind (Link.stops_release p) fun _ => stops_bind (stops_modify _) fun _ =>
      stops_pure _

theorem connect_triple (p : Parties ω) (receiving : Bool) :
    Triple (Entering receiving) (attempt (Link.connect p.logged)) fun _ => Entering receiving := by
  refine triple_mono (triple_attempt (triple_of_follows (Link.inUse_connect p)
    fun huse hs => hs.inUse huse)) (fun _ hs => hs) fun x s h => ?_
  rcases x with _ | _ | _ <;> exact h

/-- A worker whose first connect fails has torn all down when it reports that. -/
theorem startup_triple (p : Parties ω) :
    Triple (Entering true) (startup p.logged) fun x s => match x with
      | .ok (.ok _) => Entering true s
      | .ok (.error _) => Gone p.hooks.length s ∧ Retired s
      | .error _ => Held s ∧ Retired s := by
  have hstay : ∀ {s : Session (Log × ω)}, Entering true s → Held s ∧ Retired s := fun hs =>
    ⟨hs.toHeld, .inl hs.life⟩
  refine triple_bind (connect_triple p true) (fun r => ?_) fun _ _ hs => hstay hs
  cases r with
  | ok _ =>
    exact triple_bind (triple_of_follows (Link.inUse_publish p) fun huse hs => hs.inUse huse)
      (fun _ => triple_pure _ fun _ hs => hs) fun _ _ hs => hstay hs
  | error e =>
    refine triple_value_bind (M := fun _ s => Gone p.hooks.length s ∧ Retired s)
      (triple_mono (Link.release_triple p retired_stable)
        (fun _ hs => ⟨.inl (hstay hs).1, (hstay hs).2⟩) fun x s h => ⟨⟨_, h.1⟩, h.2⟩) fun _ => ?_
    exact triple_value_bind (triple_modify (fun _ => rfl) fun s hs =>
      ⟨⟨hs.1.released, hs.1.log⟩, hs.2⟩) fun _ => triple_pure _ fun _ hs => hs

/-- A worker that cannot start, or panics at that, leaves nothing behind. -/
theorem launch_triple (p : Parties ω) :
    Triple (Entering false) (launch p.logged) fun x s =>
      x = .ok (.ok ()) ∧ Entering true s ∨ (∃ e, x = .ok (.error e)) ∧ Over p.hooks.length s := by
  refine triple_value_bind (triple_modify (R := Entering true) (fun _ => rfl) fun s hs =>
    ⟨⟨hs.released, hs.log⟩, hs.life, rfl, hs.unsignalled⟩) fun _ => ?_
  refine triple_value_bind (triple_value (triple_guarded (startup_triple p))
    (stops_guarded (stops_startup p.logged))) fun r => ?_
  -- a panic tears down on the way out, a failed connect has done so before it is reported
  rcases r with q | e | _
  · exact triple_value_bind (leave_over p (some q)) fun _ => triple_get fun s =>
      triple_pure _ fun s' hs => .inr ⟨⟨_, rfl⟩, hs.1 ▸ hs.2⟩
  · refine triple_value_bind (exit_over p (triple_pure () fun s hs => ⟨.inr hs.1, hs.2⟩)
      (stops_pure ())) fun _ => triple_pure _ fun s hs => .inr ⟨⟨_, rfl⟩, hs⟩
  · exact triple_value_bind (triple_modify (R := Entering true) (fun _ => rfl) fun s hs =>
      ⟨⟨hs.released, hs.log⟩, hs.life, hs.attended, hs.unsignalled⟩) fun _ =>
        triple_pure _ fun s hs => .inl ⟨rfl, hs⟩

end Service

namespace Session

theorem uses_relocked {P : Duty → Prop} (s : Session (Log × ω)) (locked : Bool) :
    Uses P s { s with locked } := .of_eq rfl rfl rfl (.of_eq rfl rfl)

theorem triple_holding {P : Session (Log × ω) → Prop} {Q : Except Stop α → Session (Log × ω) → Prop}
    {m : Run (Log × ω) α} (hm : Triple P m Q) (hP : ∀ s locked, P s → P { s with locked })
    (hQ : ∀ x s locked, Q x s → Q x { s with locked }) : Triple P (holding m) Q := by
  intro s x s' hr hx
  unfold holding at hr
  rw [bind_apply, modify_apply] at hr
  dsimp only at hr
  unfold ensuring at hr
  rcases hms : m { s with locked := true } with ⟨(e | q | _) | a, s₁⟩ <;> rw [hms] at hr <;>
    cases hr
  case error.hang => exact absurd rfl hx
  all_goals
    obtain ⟨new, hlog, hnew⟩ := hm _ _ _ hms (by simp)
    exact ⟨new, hlog, fun ho hs => hQ _ _ _ (hnew ho (hP s true hs))⟩

theorem closeHere_triple (p : Parties ω) :
    Triple (fun s => Held s ∧ Retired s ∧ Unattended s) (closeHere p.logged) fun _ s =>
      Over p.hooks.length s := by
  have hF : Stable fun s : Session (Log × ω) => Retired s ∧ Unattended s :=
    retired_stable.and unattended_stable
  have hrelease : Triple (fun s => Held s ∧ Retired s ∧ Unattended s) (do
      Link.release p.logged
      modify fun s => { s with terminated := s.terminated.set }) fun _ s =>
        Gone p.hooks.length s ∧ Retired s ∧ Unattended s := by
    refine triple_value_bind (M := fun _ s => Gone p.hooks.length s ∧ Retired s ∧ Unattended s)
      (triple_mono (Link.release_triple p hF) (fun _ hs => ⟨.inl hs.1, hs.2⟩)
        fun x s h => ⟨⟨_, h.1⟩, h.2⟩) fun _ => ?_
    refine triple_mono (triple_modify (fun _ => rfl) fun s hs => ?_) (fun _ hs => hs)
      fun _ _ h => h.2
    exact ⟨⟨hs.1.released, hs.1.log⟩, hs.2⟩
  refine triple_mono (triple_ensuring hrelease (triple_mono (Link.drop_triple p hF)
    (fun _ hs => ⟨.inr hs.1, hs.2⟩) fun _ _ h => h)) (fun _ hs => hs) fun _ _ h => ?_
  exact ⟨h.1, h.2.1, h.2.2⟩

theorem startInCaller_triple (p : Parties ω) :
    Triple (Entering false) (startInCaller p.logged) fun x s => match x with
      | .ok _ => Alone s
      | .error (.error _) => Over p.hooks.length s
      | .error _ => (Held s ∨ Gone p.hooks.length s) ∧ Retired s ∧ Unattended s := by
  have hF : Stable fun s : Session (Log × ω) => Retired s ∧ Unattended s :=
    retired_stable.and unattended_stable
  have hstay : ∀ {s : Session (Log × ω)}, Entering false s →
      (Held s ∨ Gone p.hooks.length s) ∧ Retired s ∧ Unattended s := fun hs =>
    ⟨.inl hs.toHeld, .inl hs.life, hs.attended⟩
  have hover : ∀ {s : Session (Log × ω)}, Gone p.hooks.length s ∧ Retired s ∧ Unattended s →
      Over p.hooks.length s := fun hs => ⟨hs.1, hs.2.1, hs.2.2⟩
  refine triple_bind (triple_unfailing (Service.connect_triple p false) (stops_attempt _))
    (fun r => ?_) ?_
  · cases r with
    | ok _ =>
      refine triple_bind (triple_unfailing (triple_of_follows (Link.inUse_publish p)
        fun huse (hs : _ ∧ Entering false _) => hs.2.inUse huse) (Link.stops_publish p.logged))
        (fun _ => ?_) ?_
      · refine triple_mono (triple_modify (R := Alone) (fun _ => rfl) fun s hs => ?_)
          (fun _ hs => hs) fun x s h => ?_
        · exact ⟨⟨hs.2.released, hs.2.log⟩, .inr rfl, hs.2.attended, hs.2.unsignalled⟩
        · obtain ⟨⟨_, rfl⟩, h⟩ := h
          exact h
      · rintro (e | q | _) s ⟨hx, hs⟩
        · exact absurd rfl (hx e)
        · exact hstay hs
        · exact hstay hs
    -- the link is released, the end is signalled, and the link is dropped
    | error e =>
      refine triple_value_bind (M := fun _ s => Gone p.hooks.length s ∧ Retired s ∧ Unattended s)
        (triple_mono (Link.release_triple p hF) (fun _ hs => hstay hs.2)
          fun x s h => ⟨⟨_, h.1⟩, h.2⟩) fun _ => ?_
      refine triple_value_bind (triple_modify
        (R := fun s => Gone p.hooks.length s ∧ Retired s ∧ Unattended s) (fun _ => rfl)
        fun s hs => ⟨⟨hs.1.released, hs.1.log⟩, hs.2⟩) fun _ => ?_
      refine triple_bind (triple_mono (Link.drop_triple p hF) (fun _ hs => ⟨.inr hs.1, hs.2⟩)
        fun _ _ h => h) (fun _ => triple_stop _ fun s hs => hover hs) ?_
      rintro (_ | _ | _) s hs
      · exact hover hs
      · exact ⟨.inr hs.1, hs.2⟩
      · exact ⟨.inr hs.1, hs.2⟩
  · rintro (e | q | _) s ⟨hx, hs⟩
    · exact absurd rfl (hx e)
    · exact hstay hs
    · exact hstay hs

/-- The first connect of a session, in its worker or in the caller. -/
def enter (p : Parties ω) (threaded : Bool) : Run ω Unit :=
  if threaded then do
    match ← Service.launch p with
    | .ok () => modify fun s => { s with life := .threaded }
    | .error e => raise e
  else onPanic (startInCaller p) (Link.drop p)

theorem start_idle (p : Parties ω) {s : Session ω} (h : s.life = .idle) :
    start p s = holding (enter p s.settings.threaded) { s with life := .closed } := by
  unfold start
  rw [get_bind_apply, h]
  rfl

theorem start_refused (p : Parties ω) {s : Session ω} (h : s.life ≠ .idle) :
    ∃ e, start p s = (.error (.error e), s) := by
  unfold start
  rw [get_bind_apply]
  cases hl : s.life with
  | idle => exact absurd hl h
  | threaded | inCaller | closed => exact ⟨_, rfl⟩

theorem enter_triple (p : Parties ω) (threaded : Bool) :
    Triple (Entering false) (enter p.logged threaded) fun x s =>
      x = .ok () ∧ (Alone s ∨ Served s) ∨ Over p.hooks.length s := by
  cases threaded with
  | true =>
    refine triple_bind (Service.launch_triple p) (fun r => ?_) ?_
    · rcases r with e | _
      · refine triple_stop _ fun s hs => .inr ?_
        rcases hs with ⟨h, -⟩ | ⟨-, h⟩
        · cases h
        · exact h
      · refine triple_mono (triple_modify (R := fun s => Served s ∨ Over p.hooks.length s)
          (fun _ => rfl) fun s hs => ?_) (fun _ hs => hs) ?_
        · rcases hs with ⟨-, h⟩ | ⟨⟨e, h⟩, -⟩
          · exact .inl ⟨⟨h.released, h.log⟩, .inr rfl, h.attended, h.unsignalled, by simp⟩
          · cases h
        · rintro x s ⟨⟨_, rfl⟩, h | h⟩
          · exact .inl ⟨rfl, .inr h⟩
          · exact .inr h
    · rintro stop s (⟨h, -⟩ | ⟨⟨e, h⟩, -⟩) <;> cases h
  | false =>
    have hF : Stable fun s : Session (Log × ω) => Retired s ∧ Unattended s :=
      retired_stable.and unattended_stable
    -- after a panic the link may be held or gone, and is dropped either way
    refine triple_mono (triple_back (triple_onPanic (startInCaller_triple p) fun q =>
      Link.drop_triple p hF)) (fun _ hs => hs) fun x s h => ?_
    rcases x with (e | q | _) | _
    · exact .inr h.2
    · exact .inr ⟨h.2.1, h.2.2.1, h.2.2.2⟩
    · exact absurd rfl h.1
    · exact .inl ⟨rfl, .inl h.2⟩

/-- A session that is started goes on, or it is over. -/
theorem start_triple (p : Parties ω) :
    Triple (fun s => Alone s ∧ s.life = .idle) (start p.logged) fun x s =>
      x = .ok () ∧ (Alone s ∨ Served s) ∨ Over p.hooks.length s := by
  intro s x s' hr hx
  by_cases hl : s.life = .idle
  · rw [start_idle _ hl] at hr
    have hhold := triple_holding (enter_triple p s.settings.threaded)
      (fun s locked hs => hs.inUse (uses_relocked s locked)) (by
        rintro x s locked (⟨hx, h | h⟩ | h)
        · exact .inl ⟨hx, .inl (h.inUse (uses_relocked s locked))⟩
        · exact .inl ⟨hx, .inr (h.inUse (uses_relocked s locked))⟩
        · exact .inr (h.quiet (uses_relocked s locked)))
    obtain ⟨new, hlog, hnew⟩ := hhold _ x s' hr hx
    refine ⟨new, hlog, fun ho hs => hnew ho ?_⟩
    exact ⟨⟨hs.1.released, hs.1.log⟩, rfl, hs.1.unattended, hs.1.unsignalled⟩
  · obtain ⟨e, he⟩ := start_refused p.logged hl
    rw [he] at hr
    cases hr
    exact ⟨[], by simp, fun _ hs => absurd hs.2 hl⟩

end Session
end DatabaseSession
