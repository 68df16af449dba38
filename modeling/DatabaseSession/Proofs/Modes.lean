import DatabaseSession.Proofs.Cancellation
import DatabaseSession.Proofs.Parallels
import DatabaseSession.Proofs.Signalling

namespace DatabaseSession

open Run Session

variable {ω α β : Type} {p : Parties ω} {R : ω → ω → Prop} {s s' t t' u v : Session ω}

namespace Run

theorem exists_of_attempt_ok {m : Run ω α} {r : Except Error α}
    (hrun : attempt m s = (.ok r, t)) :
    (∃ a, r = .ok a ∧ m s = (.ok a, t)) ∨ ∃ e, r = .error e ∧ m s = (.error (.error e), t) := by
  unfold attempt at hrun
  rcases hm : m s with ⟨(e | q | _) | a, t₁⟩ <;> rw [hm] at hrun <;> cases hrun
  · exact .inr ⟨e, rfl, rfl⟩
  · exact .inl ⟨a, rfl, rfl⟩

theorem exists_of_unfailing {m : Run ω α} {r : Except Error α} (hstop : Stops Unfailing m)
    (hrun : attempt m s = (.ok r, t)) : ∃ a, r = .ok a ∧ m s = (.ok a, t) := by
  rcases exists_of_attempt_ok hrun with h | ⟨e, -, he⟩
  · exact h
  · exact absurd rfl (hstop s (.error e) (by rw [he]) e)

/-- An attempt that comes back gets past what can only panic or hang. -/
theorem exists_of_attempt_bind {m : Run ω α} {f : α → Run ω β} {r : Except Error β}
    (hm : Stops Unfailing m) (hrun : attempt (m >>= f) s = (.ok r, t)) :
    ∃ a s₁, m s = (.ok a, s₁) ∧ attempt (f a) s₁ = (.ok r, t) := by
  have hstops := hm s
  rw [attempt, bind_apply] at hrun
  rcases hms : m s with ⟨stop | a, s₁⟩ <;> rw [hms] at hrun hstops
  · rcases stop with e | q | _
    · exact absurd rfl (hstops _ rfl e)
    · cases hrun
    · cases hrun
  · exact ⟨a, s₁, rfl, hrun⟩

theorem attempt_of_error {m : Run ω α} {e : Error} (h : m s = (.error (.error e), t)) :
    attempt m s = (.ok (.error e), t) := by
  rw [attempt, h]

theorem guarded_of_ok {m : Run ω α} {a : α} (h : m s = (.ok a, t)) :
    guarded m s = (.ok (.ok a), t) := by
  rw [guarded, h]

theorem onPanic_of_ok {m : Run ω α} {after : Run ω Unit} {a : α} (h : m s = (.ok a, t)) :
    onPanic m after s = (.ok a, t) := by
  rw [onPanic, h]

theorem of_onPanic {m : Run ω α} {after : Run ω Unit} {x : Except Stop α}
    (hrun : onPanic m after s = (x, t)) (hpanic : ∀ q, x ≠ .error (.panic q))
    (hhang : x ≠ .error .hang) : m s = (x, t) := by
  unfold onPanic at hrun
  rcases hm : m s with ⟨(e | q | _) | a, t₁⟩ <;> rw [hm] at hrun <;> dsimp only at hrun
  case error.panic =>
    rcases hafter : after t₁ with ⟨(_ | _ | _) | _, u⟩ <;> rw [hafter] at hrun <;> cases hrun
    · exact absurd rfl (hpanic q)
    · exact absurd rfl hhang
    · exact absurd rfl hhang
    · exact absurd rfl (hpanic q)
  all_goals exact hrun

theorem ensuring_of_ok {m : Run ω α} {after : Run ω Unit} {a : α} (h : m s = (.ok a, t))
    (hafter : after t = (.ok (), u)) : ensuring m after s = (.ok a, u) := by
  simp only [ensuring, h, hafter]

theorem exists_of_ensuring_ok {m : Run ω α} {after : Run ω Unit} {a : α}
    (hrun : ensuring m after s = (.ok a, u)) :
    ∃ t, m s = (.ok a, t) ∧ after t = (.ok (), u) := by
  unfold ensuring at hrun
  rcases hm : m s with ⟨(e | q | _) | b, t₁⟩ <;> rw [hm] at hrun <;> dsimp only at hrun
  case error.hang => cases hrun
  all_goals
    rcases hafter : after t₁ with ⟨(_ | _ | _) | _, u₁⟩ <;> rw [hafter] at hrun <;> cases hrun
  exact ⟨t₁, rfl, hafter⟩

end Run

namespace Service

def unattended (s : Session ω) : Session ω :=
  { s with mailbox := { s.mailbox with receiving := false } }

def signalled (s : Session ω) : Session ω := { s with terminated := s.terminated.set }

theorem exit_of_ok {m : Run ω Unit} (hm : m s = (.ok (), t)) (hdrop : Link.drop p t = (.ok (), u)) :
    exit p m s = (.ok (), unattended u) := by
  unfold exit
  rw [bind_of_ok (guarded_of_ok (ensuring_of_ok hm hdrop))]
  rfl

theorem attendTo_of_ok {request : Request} (h : handle p request s = (.ok true, t)) :
    attendTo p request s = (.ok true, t) := by
  unfold attendTo
  rw [bind_of_ok (guarded_of_ok h)]
  rfl

theorem attendTo_of_leave (h : leave p none s = (.ok (), t)) :
    attendTo p .close s = (.ok true, t) := by
  have hhandle : handle p .close s = (.ok false, s) := rfl
  unfold attendTo
  rw [bind_of_ok (guarded_of_ok hhandle)]
  dsimp only
  rw [bind_of_ok h]
  rfl

theorem launch_of_ok (hconnect : Link.connect p (attended true s) = (.ok (), t))
    (hpublish : Link.publish p t = (.ok (), u)) :
    launch p s = (.ok (.ok ()), { u with mailbox := { u.mailbox with
      probing := u.link.options.probeInterval } }) := by
  have hstartup : startup p (attended true s) = (.ok (.ok ()), u) := by
    unfold startup
    rw [bind_of_ok (attempt_of_ok hconnect)]
    dsimp only
    rw [bind_of_ok hpublish]
    rfl
  unfold launch
  change (guarded (startup p) >>= _) (attended true s) = _
  rw [bind_of_ok (guarded_of_ok hstartup)]
  rfl

theorem launch_of_error {e : Error}
    (hconnect : Link.connect p (attended true s) = (.error (.error e), t))
    (hrelease : Link.release p t = (.ok (), u))
    (hdrop : Link.drop p (signalled u) = (.ok (), v)) :
    launch p s = (.ok (.error e), unattended v) := by
  have hstartup : startup p (attended true s) = (.ok (.error e), signalled u) := by
    unfold startup
    rw [bind_of_ok (attempt_of_error hconnect)]
    dsimp only
    rw [bind_of_ok hrelease]
    rfl
  unfold launch
  change (guarded (startup p) >>= _) (attended true s) = _
  rw [bind_of_ok (guarded_of_ok hstartup)]
  dsimp only
  rw [bind_of_ok (exit_of_ok (pure_apply () _) hdrop)]
  rfl

end Service

namespace Session

open Service

structure AtRest (served : Bool) (s : Session ω) : Prop where
  registry : s.registry = {}
  queue : s.mailbox.queue = []
  probing : s.mailbox.probing = none
  receiving : s.mailbox.receiving = served
  handles : 0 < s.handles

theorem AtRest.of_eq {served : Bool} (h : AtRest served s) (hregistry : t.registry = s.registry)
    (hmailbox : t.mailbox = s.mailbox) (hhandles : t.handles = s.handles) : AtRest served t where
  registry := hregistry.trans h.registry
  queue := (congrArg Mailbox.queue hmailbox).trans h.queue
  probing := (congrArg Mailbox.probing hmailbox).trans h.probing
  receiving := (congrArg Mailbox.receiving hmailbox).trans h.receiving
  handles := lt_of_lt_of_eq h.handles hhandles.symm

theorem AtRest.of_frame {served : Bool} (h : AtRest served s) (hF : t.frame = s.frame) :
    AtRest served t :=
  h.of_eq (congrArg Frame.registry hF) (congrArg Frame.mailbox hF) (congrArg Frame.handles hF)

theorem settle_atRest {served : Bool} (hpatience : 0 < p.patience) (h : AtRest served s) :
    settle p s = (.ok (), s) := by
  obtain ⟨n, hn⟩ := Nat.exists_eq_add_of_le' hpatience
  rw [settle, hn, Service.settle, get_bind_apply, h.receiving]
  cases served with
  | false => rfl
  | true =>
    rw [if_pos rfl, bind_of_ok (step_empty p h.queue)]
    rfl

/-- The worker deals with the one request there is. -/
theorem settle_one {request : Request} (hpatience : 2 ≤ p.patience)
    (hattended : s.mailbox.receiving = true) (hqueue : s.mailbox.queue = [request])
    (hrun : attendTo p request (unqueued s []) = (.ok true, t)) (ht : t.mailbox.queue = []) :
    settle p s = (.ok (), t) := by
  obtain ⟨n, hn⟩ := Nat.exists_eq_add_of_le' hpatience
  have hstep : step p s = (.ok true, t) := (step_cons p hqueue).trans hrun
  rw [settle, hn, Service.settle, get_bind_apply, hattended, if_pos rfl, bind_of_ok hstep,
    if_pos rfl, Service.settle, get_bind_apply]
  split
  · rw [bind_of_ok (step_empty p ht)]
    rfl
  · rfl

/-- A first connect in the caller that comes back: it was made and published, or it failed and the
connection was torn down. -/
theorem exists_of_startInCaller {r : Except Error Unit}
    (hrun : attempt (startInCaller p) s = (.ok r, v)) :
    (r = .ok () ∧ ∃ t u, Link.connect p s = (.ok (), t) ∧ Link.publish p t = (.ok (), u) ∧
        v = { u with life := .inCaller }) ∨
      ∃ e, r = .error e ∧ ∃ t u, Link.connect p s = (.error (.error e), t) ∧
        Link.release p t = (.ok (), u) ∧ Link.drop p (signalled u) = (.ok (), v) := by
  obtain ⟨r₁, t, htry, hrun⟩ := exists_of_attempt_bind (stops_attempt _) hrun
  rcases exists_of_attempt_ok htry with ⟨_, rfl, hconnect⟩ | ⟨e, rfl, hconnect⟩
  · obtain ⟨_, u, hpublish, hrun⟩ := exists_of_attempt_bind (Link.stops_publish p) hrun
    cases hrun
    exact .inl ⟨rfl, t, u, hconnect, hpublish, rfl⟩
  · obtain ⟨_, u, hrelease, hrun⟩ := exists_of_attempt_bind (Link.stops_release p) hrun
    obtain ⟨_, _, ⟨⟩, hrun⟩ := exists_of_attempt_bind (stops_modify _) hrun
    obtain ⟨_, _, hdrop, hrun⟩ := exists_of_attempt_bind (Link.stops_drop p) hrun
    cases hrun
    exact .inr ⟨e, rfl, t, u, hconnect, hrelease, hdrop⟩

theorem attempt_start_inCaller {r : Except Error Unit} (hlife : s.life = .idle)
    (hmode : s.settings.threaded = false) (hrun : attempt (start p) s = (.ok r, t)) :
    ∃ v, attempt (startInCaller p) { s with life := .closed, locked := true } = (.ok r, v) ∧
      t = { v with locked := false } := by
  rcases exists_of_attempt_ok hrun with ⟨a, rfl, h⟩ | ⟨e, rfl, h⟩ <;>
    rw [start_idle p hlife, hmode] at h <;> obtain ⟨v, henter, rfl⟩ := holding_runs h (by simp)
  · exact ⟨v, attempt_of_ok (of_onPanic henter (by simp) (by simp)), rfl⟩
  · exact ⟨v, attempt_of_error (of_onPanic henter (by simp) (by simp)), rfl⟩

theorem attempt_start_threaded {r : Except Error Unit} (hlife : s.life = .idle)
    (hmode : s.settings.threaded = true)
    (hrun : launch p { s with life := .closed, locked := true } = (.ok r, v)) :
    attempt (start p) s = (.ok r, { v with
      life := if r.isOk then .threaded else v.life, locked := false }) := by
  have henter : enter p true { s with life := .closed, locked := true } =
      (r.mapError .error, { v with life := if r.isOk then .threaded else v.life }) := by
    rw [enter, if_pos rfl, bind_of_ok hrun]
    cases r <;> rfl
  have hstart : start p s = ensuring (enter p true) (modify fun s => { s with locked := false })
      { s with life := .closed, locked := true } := by
    rw [start_idle p hlife, hmode]
    rfl
  rw [attempt, hstart, ensuring, henter]
  cases r <;> rfl

/-- What teardown does in one session it does in the other, wherever their mailboxes stand. -/
theorem teardown_mirrored (hp : p.Oblivious R) {f : Session ω → Session ω}
    (hf : ∀ {a b : Session ω}, Alike R a b → Alike R a (f b)) (hs : Alike R s s')
    (hrelease : Link.release p s = (.ok (), t))
    (hdrop : Link.drop p (signalled t) = (.ok (), u)) :
    ∃ t' u', Link.release p s' = (.ok (), t') ∧ Link.drop p (f t') = (.ok (), u') ∧
      Alike R u u' ∧ t.frame = s.frame ∧ u.frame = (signalled t).frame ∧ t'.frame = s'.frame ∧
      u'.frame = (f t').frame := by
  obtain ⟨t', hrelease', ht, htF, htF'⟩ := (Link.matched_release hp).run hs hrelease
  have hsignalled : Alike R (signalled t) (f t') := hf { ht with }
  obtain ⟨u', hdrop', hu, huF, huF'⟩ := (Link.matched_drop hp).run hsignalled hdrop
  exact ⟨t', u', hrelease', hdrop', hu, htF, huF, htF', huF'⟩

theorem start_mirrored (hp : p.Oblivious R) {r : Except Error Unit} (hs : Alike R s s')
    (hlife : s.life = .idle) (hlife' : s'.life = .idle) (hmode : s.settings.threaded = false)
    (hmode' : s'.settings.threaded = true) (hrun : attempt (start p) s = (.ok r, t)) :
    ∃ t', attempt (start p) s' = (.ok r, t') ∧ Alike R t t' ∧
      (r = .ok () ∧ t.frame = { s.frame with life := .inCaller, locked := false } ∧
          t'.frame = { s'.frame with
            life := .threaded, locked := false
            mailbox := { s'.mailbox with
              receiving := true, probing := s'.link.options.probeInterval } } ∨
        t.frame = { s.frame with life := .closed, locked := false, terminated := ⟨true⟩ } ∧
          t'.frame = { s'.frame with
            life := .closed, locked := false, terminated := ⟨true⟩
            mailbox := { s'.mailbox with receiving := false } }) := by
  obtain ⟨v, hstart, rfl⟩ := attempt_start_inCaller hlife hmode hrun
  have hheld : Alike R { s with life := .closed, locked := true }
    (attended true { s' with life := .closed, locked := true }) := { hs with }
  -- the worker makes the same connect, from a state that differs in its mailbox only
  rcases exists_of_startInCaller hstart with
    ⟨rfl, t, u, hconnect, hpublish, rfl⟩ | ⟨e, rfl, t, u, hconnect, hrelease, hdrop⟩
  · obtain ⟨t', hconnect', ht, htF, htF'⟩ := (Link.matched_connect hp).run hheld hconnect
    obtain ⟨u', hpublish', hu, huF, huF'⟩ := (Link.matched_publish hp).run ht hpublish
    refine ⟨_, attempt_start_threaded hlife' hmode' (launch_of_ok hconnect' hpublish'),
      { hu with }, .inl ⟨rfl, ?_, ?_⟩⟩
    · exact congrArg (fun F => { F with life := .inCaller, locked := false }) (huF.trans htF)
    · exact congrArg (fun F => { F with
        life := .threaded, locked := false
        mailbox := { F.mailbox with probing := F.options.probeInterval } }) (huF'.trans htF')
  · obtain ⟨t', hconnect', ht, htF, htF'⟩ := (Link.matched_connect hp).run hheld hconnect
    obtain ⟨u', v', hrelease', hdrop', hv, huF, hvF, huF', hvF'⟩ :=
      teardown_mirrored hp (f := signalled) (fun h => { h with }) ht hrelease hdrop
    refine ⟨_, attempt_start_threaded hlife' hmode' (launch_of_error hconnect' hrelease' hdrop'),
      { hv with }, .inr ⟨?_, ?_⟩⟩
    · exact (congrArg (fun F => { F with locked := false }) hvF).trans
        (congrArg (fun F => { F with locked := false, terminated := ⟨true⟩ }) (huF.trans htF))
    · exact (congrArg (fun F => { F with
          locked := false, mailbox := { F.mailbox with receiving := false } }) hvF').trans
        (congrArg (fun F => { F with
          locked := false, terminated := ⟨true⟩
          mailbox := { F.mailbox with receiving := false } }) (huF'.trans htF'))

theorem exists_of_closeHere {r : Except Error Unit}
    (hrun : attempt (closeHere p) s = (.ok r, u)) :
    r = .ok () ∧ ∃ t, Link.release p s = (.ok (), t) ∧ Link.drop p (signalled t) = (.ok (), u) := by
  have hstops : Stops Unfailing (closeHere p) := stops_ensuring (unfailing_hang rfl)
    (stops_bind (Link.stops_release p) fun _ => stops_modify _) (Link.stops_drop p)
  obtain ⟨_, rfl, hclose⟩ := exists_of_unfailing hstops hrun
  obtain ⟨_, hbody, hdrop⟩ := exists_of_ensuring_ok hclose
  obtain ⟨_, t, hrelease, hbody⟩ := exists_of_bind_ok hbody
  cases hbody
  exact ⟨rfl, t, hrelease, hdrop⟩

theorem closeHere_of_ok (hrelease : Link.release p s = (.ok (), t))
    (hdrop : Link.drop p (signalled t) = (.ok (), u)) : closeHere p s = (.ok (), u) := by
  refine ensuring_of_ok ?_ hdrop
  rw [bind_of_ok hrelease]
  rfl

/-- The worker winds up once its queue is empty. -/
def retired (s : Session ω) : Session ω := unattended (signalled s)

def unprobed (s : Session ω) : Session ω :=
  { s with mailbox := { s.mailbox with probing := none } }

theorem windUp_of_ok (hpatience : 0 < p.patience) (hqueue : s.mailbox.queue = [])
    (hrelease : Link.release p (unprobed s) = (.ok (), t)) :
    windUp p s = (.ok (), retired t) := by
  have hempty : emptyQueue p p.patience (unprobed s) = (.ok (), unprobed s) := by
    obtain ⟨n, hn⟩ := Nat.exists_eq_add_of_le' hpatience
    have hdequeue : dequeue (unprobed s) = (.ok none, unprobed s) := by
      unfold dequeue
      rw [get_bind_apply]
      simp only [unprobed, hqueue]
      rfl
    rw [hn, emptyQueue, bind_of_ok hdequeue]
    rfl
  unfold windUp
  change (emptyQueue p p.patience >>= _) (unprobed s) = _
  rw [bind_of_ok hempty, bind_of_ok hrelease]
  rfl

theorem close_inCaller (hlife : s.life = .idle ∨ s.life = .inCaller) :
    close p s = closeHere p { s with life := .closed } := by
  unfold close
  rw [get_bind_apply]
  rcases hlife with h | h <;> rw [h] <;> rfl

theorem close_threaded (hpatience : 2 ≤ p.patience) (hlife : s.life = .threaded)
    (hrest : AtRest true s)
    (hrelease : Link.release p (unprobed { s with life := .closed }) = (.ok (), t))
    (hdrop : Link.drop p (retired t) = (.ok (), u)) (hqueue : u.mailbox.queue = [])
    (hset : u.terminated.isSet = true) : close p s = (.ok (), unattended u) := by
  have hwind : onPanic (windUp p) (windUp p) { s with life := .closed } = (.ok (), retired t) :=
    onPanic_of_ok (windUp_of_ok (by omega) hrest.queue hrelease)
  have hattend : attendTo p .close { s with life := .closed } = (.ok true, unattended u) :=
    attendTo_of_leave (exit_of_ok hwind hdrop)
  have hsent : ({ s with life := .closed }.sendRequest .close).2 =
      { s with life := .closed, mailbox := { s.mailbox with queue := [.close] } } := by
    simp only [sendRequest, hrest.receiving, if_pos, Mailbox.push, hrest.queue, List.nil_append]
  have hqueued : unqueued { s with
      life := .closed, mailbox := { s.mailbox with queue := [.close] } } [] =
      { s with life := .closed } := by
    rw [unqueued, ← hrest.queue]
  have hsettle : settle p { s with
      life := .closed, mailbox := { s.mailbox with queue := [.close] } } =
      (.ok (), unattended u) :=
    settle_one hpatience hrest.receiving rfl (by rw [hqueued, hattend]) hqueue
  unfold close
  rw [get_bind_apply, bind_apply, set_apply, hlife]
  dsimp only
  rw [bind_apply, modify_apply]
  dsimp only
  rw [hsent, bind_of_ok hsettle, get_bind_apply]
  change (if !u.terminated.isSet then hang else pure ()) (unattended u) = _
  rw [hset]
  rfl

theorem matched_renew (hp : p.Oblivious R) :
    Matched R Eq (attempt (Link.renew p)) (attempt (Link.renew p)) :=
  (matched_attempt (matched_bind_eq (Link.matched_reconnect hp .user) fun _ =>
    Link.matched_publish hp)).mono fun _ _ h => h.eq

theorem attempt_reconnect_inCaller {options : Option Options} {r : Except Error Unit}
    (hlife : s.life = .inCaller) (hrun : attempt (reconnect p options) s = (.ok r, t)) :
    ∃ v, attempt (Link.renew p) (adopted options { s with locked := true }) = (.ok r, v) ∧
      t = { v with locked := false } := by
  rcases exists_of_attempt_ok hrun with ⟨a, rfl, h⟩ | ⟨e, rfl, h⟩ <;>
    rw [reconnect_inCaller _ _ hlife] at h <;> obtain ⟨v, hv, rfl⟩ := holding_runs h (by simp)
  · exact ⟨v, attempt_of_ok hv, rfl⟩
  · exact ⟨v, attempt_of_error hv, rfl⟩

def ticketed (s : Session ω) : Session ω :=
  { s with mailbox := { s.mailbox with queue := [], tickets := s.mailbox.tickets + 1 } }

def replied (ticket : Nat) (r : Except Error Unit) (s : Session ω) : Session ω :=
  { s with mailbox := { s.mailbox with replies := (ticket, some r) :: s.mailbox.replies } }

theorem handleReconnect_of_ok {options : Option Options} {ticket : Nat} {r : Except Error Unit}
    (hrun : attempt (Link.renew p) (adopted options s) = (.ok r, t)) :
    handleReconnect p options ticket s = (.ok (), replied ticket r t) := by
  have hinner : (do
      modify (adopted options)
      attempt (Link.renew p) : Run ω (Except Error Unit)) s = (.ok r, t) := hrun
  rw [handleReconnect, bind_of_ok (onPanic_of_ok hinner)]
  rfl

theorem attempt_reconnect_threaded {options : Option Options} {r : Except Error Unit}
    (hpatience : 2 ≤ p.patience) (hlife : s.life = .threaded) (hrest : AtRest true s)
    (hrun : attempt (Link.renew p) (adopted options (ticketed s)) = (.ok r, t))
    (hqueue : t.mailbox.queue = []) :
    attempt (reconnect p options) s = (.ok r, replied s.mailbox.tickets r t) := by
  have hsent : s.requestReconnect options = (.ticket s.mailbox.tickets, { s with
      mailbox := { s.mailbox with
        queue := [.reconnect options s.mailbox.tickets]
        tickets := s.mailbox.tickets + 1 } }) := by
    simp only [requestReconnect, sendRequest, hrest.receiving, if_pos, Mailbox.push, hrest.queue,
      List.nil_append]
  have hhandle : handle p (.reconnect options s.mailbox.tickets) (ticketed s) =
      (.ok true, replied s.mailbox.tickets r t) := by
    change (handleReconnect p options s.mailbox.tickets >>= fun _ => pure true) (ticketed s) = _
    rw [bind_of_ok (handleReconnect_of_ok hrun)]
    rfl
  have hsettle : settle p { s with mailbox := { s.mailbox with
      queue := [.reconnect options s.mailbox.tickets]
      tickets := s.mailbox.tickets + 1 } } = (.ok (), replied s.mailbox.tickets r t) :=
    settle_one hpatience hrest.receiving rfl (attendTo_of_ok hhandle) hqueue
  have hreply : (replied s.mailbox.tickets r t).reconnectReply? s.mailbox.tickets = some r := by
    simp only [reconnectReply?, replied, List.lookup_cons, beq_self_eq_true]
  have hbody : reconnect p options s =
      (r.mapError .error, replied s.mailbox.tickets r t) := by
    have hrefusal : s.refusal = none := by rw [refusal, hlife]
    unfold reconnect
    rw [get_bind_apply, hrefusal]
    dsimp only
    rw [if_neg (by rw [hlife]; decide), hsent, bind_apply, set_apply]
    dsimp only
    rw [bind_of_ok hsettle, get_bind_apply, hreply]
    cases r <;> rfl
  rw [attempt, hbody]
  cases r <;> rfl

theorem exists_of_submit_inCaller {task : Task} {r : Except Error (Option Outcome)}
    (hlife : s.life = .inCaller) (hrun : attempt (submit p task) s = (.ok r, t)) :
    ∃ v, Task.perform p task.keepingEvents { s with locked := true } = (.ok (), v) ∧
      t = { v with locked := false } ∧
      r = .ok (if v.life = .inCaller then some v.active.outcome else none) := by
  have hrefusal : s.refusal = none := by rw [refusal, hlife]
  have hassign : assign p task.keepingEvents s = holding (Task.perform p task.keepingEvents) s := by
    unfold assign
    rw [get_bind_apply, hrefusal]
    dsimp only
    rw [if_pos hlife]
  have hbody : submit p task s = (assign p task.keepingEvents >>= fun _ => do
      let s ← get
      return if s.life = .inCaller then some s.active.outcome else none) s := by
    unfold submit
    rw [get_bind_apply, if_pos hlife]
  have hstops : Stops Unfailing (holding (Task.perform p task.keepingEvents)) :=
    stops_bind (stops_modify _) fun _ =>
      stops_ensuring (unfailing_hang rfl) (Task.stops_perform p _) (stops_modify _)
  rw [attempt, hbody, bind_apply, hassign] at hrun
  have hstopsAt := hstops s
  rcases hheld : holding (Task.perform p task.keepingEvents) s with ⟨(e | q | _) | _, u⟩ <;>
    rw [hheld] at hrun hstopsAt
  · exact absurd rfl (hstopsAt _ rfl e)
  · cases hrun
  · cases hrun
  · cases hrun
    obtain ⟨v, hperform, rfl⟩ := holding_runs hheld (by simp)
    exact ⟨v, hperform, rfl, rfl⟩

theorem submit_threaded (task : Task) (hlife : s.life = .threaded) (hrest : AtRest true s) :
    submit p task s = (.ok none, queued s task) := by
  have hrefusal : s.refusal = none := by rw [refusal, hlife]
  have hne : s.life ≠ .inCaller := by simp [hlife]
  have hassign : assign p task s = (.ok (), queued s task) := by
    unfold assign
    rw [get_bind_apply, hrefusal]
    dsimp only
    rw [if_neg hne, enqueue_attended s task hrest.receiving]
    rfl
  unfold submit
  rw [get_bind_apply, if_neg hne, bind_of_ok hassign, get_bind_apply]
  change (Except.ok (if s.life = .inCaller then _ else none), _) = _
  rw [if_neg hne]

theorem dropTask_of_lt {task : Task} (h : task.handles < s.handles) :
    dropTask task s = { s with handles := s.handles - task.handles } := by
  unfold dropTask Task.handles at *
  cases hkeeps : task.keepsHandle with
  | false => rfl
  | true =>
    rw [hkeeps, if_pos rfl] at h
    have hleft : ¬ (s.handles - 1 = 0 ∧ s.life = .threaded) := by omega
    simp only [if_pos, giveUpHandle, hleft, if_false]

theorem settle_queued {task : Task} (hpatience : 2 ≤ p.patience) (hrest : AtRest true s)
    (hrun : Task.perform p task (unqueued (queued s task) []) = (.ok (), t))
    (hframe : t.mailbox = (unqueued (queued s task) []).mailbox ∧
      t.handles = (queued s task).handles) :
    settle p (queued s task) = (.ok (), { t with handles := s.handles }) := by
  have hhandles : task.handles < t.handles := by
    have hheld := hrest.handles
    rw [hframe.2]
    change task.handles < s.handles + task.handles
    omega
  have hback : t.handles - task.handles = s.handles := by
    rw [hframe.2]
    exact Nat.add_sub_cancel s.handles task.handles
  have hdrop : dropTask task t = { t with handles := s.handles } := by
    rw [dropTask_of_lt hhandles, hback]
  have hhandle : handle p (.task task) (unqueued (queued s task) []) =
      (.ok true, { t with handles := s.handles }) := by
    have hensured : ensuring (Task.perform p task) (modify (dropTask task))
        (unqueued (queued s task) []) = (.ok (), { t with handles := s.handles }) :=
      ensuring_of_ok hrun (by rw [modify_apply, hdrop])
    change (ensuring _ _ >>= fun _ => pure true) _ = _
    rw [bind_of_ok hensured]
    rfl
  refine settle_one hpatience hrest.receiving ?_ (attendTo_of_ok hhandle) ?_
  · change s.mailbox.queue ++ [_] = _
    rw [hrest.queue]
    rfl
  · change t.mailbox.queue = []
    rw [hframe.1]
    rfl

/-- A task that is run in the caller, and the same one taken from the queue of a worker. -/
theorem perform_mirrored (hp : p.Oblivious R) {task : Task} (hbuiltIn : task.work.isBuiltIn = true)
    (hs : Alike R s s') (hregistry : s.registry = {}) (hregistry' : s'.registry = {})
    (hperform : Task.perform p task.keepingEvents { s with locked := true } = (.ok (), v)) :
    ∃ v', Task.perform p task (unqueued (queued s' task) []) = (.ok (), v') ∧ Alike R v v' ∧
      v.frame = { s.frame with locked := true } ∧
      v'.frame = { (unqueued (queued s' task) []).frame with registry := {} } := by
  have hbegin : s.registry.beginOptional task.requestId = (false, {}) := by
    rw [hregistry]
    cases task.requestId <;> rfl
  -- the id was entered when the task was queued, and goes when it is taken up
  have hbegin' : (queued s' task).registry.beginOptional task.requestId = (false, {}) := by
    change (s'.registry.enqueueOptional _).beginOptional _ = _
    rw [hregistry']
    cases task.requestId with
    | none => rfl
    | some id => simp [Registry.enqueueOptional, Registry.enqueue, Registry.beginOptional,
        Registry.begin, Registry.isCancelled]
  have htaken : Alike R (Task.takeUp task.keepingEvents { s with locked := true })
      (Task.takeUp task (unqueued (queued s' task) [])) :=
    { hs with killed := rfl, active := ⟨hbuiltIn, rfl, rfl, rfl, rfl, rfl, rfl, rfl⟩ }
  have hmarked : Task.marked task.keepingEvents { s with locked := true } = false :=
    congrArg Prod.fst hbegin
  have hmarked' : Task.marked task (unqueued (queued s' task) []) = false :=
    congrArg Prod.fst hbegin'
  obtain ⟨hx, hv, hF, hF'⟩ := Task.perform_matched hp hmarked hmarked' htaken
  rcases hperform' : Task.perform p task (unqueued (queued s' task) []) with ⟨x', v'⟩
  rw [hperform] at hx hv hF
  rw [hperform'] at hx hv hF'
  obtain rfl : .ok () = x' := hx.eq
  refine ⟨v', rfl, hv, hF.trans ?_, hF'.trans ?_⟩
  · have hsame : (s.registry.beginOptional task.requestId).2 = s.registry := by
      rw [hbegin, hregistry]
    exact congrArg (fun g => { s.frame with locked := true, registry := g }) hsame
  · exact congrArg (fun g => { (unqueued (queued s' task) []).frame with registry := g })
      (congrArg Prod.snd hbegin')

end Session
end DatabaseSession
