import DatabaseSession.Proofs.Modes
import Mathlib.Data.List.Forall2

namespace DatabaseSession

open Run

variable {ω : Type} {p : Parties ω} {R : ω → ω → Prop}

namespace Fields

/-- Two fields that differ at most in the value under one name. -/
def SameBut (name : String) (f g : String × Json) : Prop := f.1 = g.1 ∧ (f.1 ≠ name → f = g)

theorem SameBut.refl (name : String) (f : String × Json) : SameBut name f f := ⟨rfl, fun _ => rfl⟩

theorem forall₂_insert {name other : String} {x y : Json}
    (hxy : SameBut name (other, x) (other, y)) {a b : Fields}
    (h : List.Forall₂ (SameBut name) a b) :
    List.Forall₂ (SameBut name) (insert other x a) (insert other y b) := by
  induction h with
  | nil => exact .cons hxy .nil
  | @cons f g a b hfg hab ih =>
    obtain ⟨n, v⟩ := f
    obtain ⟨n', v'⟩ := g
    obtain ⟨rfl : n = n', hval⟩ := hfg
    simp only [insert]
    split
    · exact .cons hxy (.cons ⟨rfl, hval⟩ hab)
    · split
      · next hn =>
        subst hn
        exact .cons hxy hab
      · exact .cons ⟨rfl, hval⟩ ih

theorem erase_eq_of_forall₂ {name : String} {a b : Fields}
    (h : List.Forall₂ (SameBut name) a b) : erase a name = erase b name := by
  induction h with
  | nil => rfl
  | @cons f g a b hfg hab ih =>
    simp only [erase] at ih ⊢
    by_cases hf : f.1 = name
    · rw [List.filter_cons_of_neg (by simpa using hf),
        List.filter_cons_of_neg (by simpa [← hfg.1] using hf), ih]
    · rw [← hfg.2 hf, List.filter_cons_of_pos (by simpa using hf),
        List.filter_cons_of_pos (by simpa using hf), ih]

end Fields

def Json.without (name : String) : Json → Json
  | .object fields => .object (Fields.erase fields name)
  | j => j

namespace Session

variable {s s' t t' : Session ω}

/-- A session whose tasks run in the caller and one with a worker, in the same phase of their
lives. -/
inductive Abreast (R : ω → ω → Prop) (s s' : Session ω) : Prop where
  | idle (halike : Alike R s s') (hlife : s.life = .idle) (hlife' : s'.life = .idle)
      (hmode : s.settings.threaded = false) (hmode' : s'.settings.threaded = true)
      (hprobe : s'.link.options.probeInterval = none) (hrest : AtRest false s)
      (hrest' : AtRest false s')
  | opened (halike : Alike R s s') (hlife : s.life = .inCaller) (hlife' : s'.life = .threaded)
      (hrest : AtRest false s) (hrest' : AtRest true s')
  | closed (halike : Alike R s s') (hlife : s.life = .closed) (hlife' : s'.life = .closed)
      (hset : s.terminated.isSet = true) (hset' : s'.terminated.isSet = true)
      (hrest : AtRest false s) (hrest' : AtRest false s')

namespace Abreast

theorem alike (h : Abreast R s s') : Alike R s s' := by
  cases h <;> assumption

theorem rest (h : Abreast R s s') : AtRest false s := by
  cases h <;> assumption

theorem exists_rest (h : Abreast R s s') : ∃ served, AtRest served s' := by
  cases h <;> exact ⟨_, ‹AtRest _ s'›⟩

theorem refusal_eq (h : Abreast R s s') : s.refusal = s'.refusal := by
  have hid := h.alike.id
  cases h with
  | idle _ hlife hlife' => simp only [refusal, hlife, hlife', notYetOpen, fault, hid]
  | opened _ hlife hlife' => simp only [refusal, hlife, hlife']
  | closed _ hlife hlife' => simp only [refusal, hlife, hlife', alreadyClosed, hid]

theorem revived (h : Abreast R s s') :
    Abreast R { s with killed := false } { s' with killed := false } := by
  cases h with
  | idle halike hlife hlife' hmode hmode' hprobe hrest hrest' =>
    exact .idle { halike with killed := rfl } hlife hlife' hmode hmode' hprobe (hrest.of_frame rfl)
      (hrest'.of_frame rfl)
  | opened halike hlife hlife' hrest hrest' =>
    exact .opened { halike with killed := rfl } hlife hlife' (hrest.of_frame rfl)
      (hrest'.of_frame rfl)
  | closed halike hlife hlife' hset hset' hrest hrest' =>
    exact .closed { halike with killed := rfl } hlife hlife' hset hset' (hrest.of_frame rfl)
      (hrest'.of_frame rfl)

theorem of_teardown (s s' : Session ω) {u u' : Session ω} (hu : Alike R u u')
    (hrest : AtRest false s) (hrest' : AtRest false s')
    (hframe : u.frame = { s.frame with life := .closed, terminated := ⟨true⟩ })
    (hframe' : u'.frame = { s'.frame with life := .closed, terminated := ⟨true⟩ }) :
    Abreast R u u' := by
  refine .closed hu (congrArg Frame.life hframe) (congrArg Frame.life hframe') ?_ ?_
    (AtRest.of_frame (s := { s with life := .closed, terminated := ⟨true⟩ }) { hrest with } hframe)
    (AtRest.of_frame (s := { s' with life := .closed, terminated := ⟨true⟩ }) { hrest' with }
      hframe')
  · exact congrArg (fun F => F.terminated.isSet) hframe
  · exact congrArg (fun F => F.terminated.isSet) hframe'

theorem start (hp : p.Oblivious R) (h : Abreast R s s') {r : Except Error Unit}
    (hrun : attempt (Session.start p) s = (.ok r, t)) :
    ∃ t', attempt (Session.start p) s' = (.ok r, t') ∧ Abreast R t t' := by
  have hid := h.alike.id
  cases h with
  | idle halike hlife hlife' hmode hmode' hprobe hrest hrest' =>
    obtain ⟨t', hrun', ht, ⟨rfl, hF, hF'⟩ | ⟨hF, hF'⟩⟩ :=
      start_mirrored hp halike hlife hlife' hmode hmode' hrun
    · refine ⟨t', hrun', .opened ht (congrArg Frame.life hF) (congrArg Frame.life hF') ?_ ?_⟩
      · exact AtRest.of_frame (s := { s with life := .inCaller, locked := false }) { hrest with } hF
      · exact AtRest.of_frame (s := { s' with
          life := .threaded, locked := false, mailbox := { s'.mailbox with
            receiving := true, probing := s'.link.options.probeInterval } })
          { hrest' with receiving := rfl, probing := hprobe } hF'
    · exact ⟨t', hrun', of_teardown { s with locked := false }
        { s' with locked := false, mailbox := { s'.mailbox with receiving := false } } ht
        { hrest with } { hrest' with receiving := rfl } hF hF'⟩
  | opened halike hlife hlife' hrest hrest' =>
    have hopen : ∀ u : Session ω, u.life = .threaded ∨ u.life = .inCaller →
        attempt (Session.start p) u =
          (.ok (.error (u.fault .alreadyOpen "The session is already open.")), u) := by
      intro u hu
      unfold attempt Session.start
      rw [get_bind_apply]
      rcases hu with hu | hu <;> rw [hu] <;> rfl
    rw [hopen s (.inr hlife), fault, hid] at hrun
    cases hrun
    exact ⟨s', hopen s' (.inl hlife'), .opened halike hlife hlife' hrest hrest'⟩
  | closed halike hlife hlife' hset hset' hrest hrest' =>
    have hclosed : ∀ u : Session ω, u.life = .closed →
        attempt (Session.start p) u = (.ok (.error u.alreadyClosed), u) := by
      intro u hu
      unfold attempt Session.start
      rw [get_bind_apply, hu]
      rfl
    rw [hclosed s hlife, alreadyClosed, hid] at hrun
    cases hrun
    exact ⟨s', hclosed s' hlife', .closed halike hlife hlife' hset hset' hrest hrest'⟩

theorem close (hp : p.Oblivious R) (hpatience : 2 ≤ p.patience) (h : Abreast R s s')
    {r : Except Error Unit} (hrun : attempt (Session.close p) s = (.ok r, t)) :
    ∃ t', attempt (Session.close p) s' = (.ok r, t') ∧ Abreast R t t' := by
  cases h with
  | idle halike hlife hlife' hmode hmode' hprobe hrest hrest' =>
    have hclosed : Alike R { s with life := .closed } { s' with life := .closed } := { halike with }
    rw [attempt, close_inCaller (.inl hlife), ← attempt] at hrun
    obtain ⟨rfl, t₁, hrelease, hdrop⟩ := exists_of_closeHere hrun
    obtain ⟨t₁', u', hrelease', hdrop', hu, hF, hG, hF', hG'⟩ :=
      teardown_mirrored hp (f := Service.signalled) (fun h => { h with }) hclosed hrelease hdrop
    refine ⟨u', attempt_of_ok ?_, of_teardown s s' hu hrest hrest' (hG.trans ?_) (hG'.trans ?_)⟩
    · rw [close_inCaller (.inl hlife')]
      exact closeHere_of_ok hrelease' hdrop'
    · exact congrArg (fun F => { F with terminated := ⟨true⟩ }) hF
    · exact congrArg (fun F => { F with terminated := ⟨true⟩ }) hF'
  -- the worker does the same when it takes the request, and leaves the mailbox afterwards
  | opened halike hlife hlife' hrest hrest' =>
    have hclosed : Alike R { s with life := .closed } (unprobed { s' with life := .closed }) :=
      { halike with }
    rw [attempt, close_inCaller (.inr hlife), ← attempt] at hrun
    obtain ⟨rfl, t₁, hrelease, hdrop⟩ := exists_of_closeHere hrun
    obtain ⟨t₁', u', hrelease', hdrop', hu, hF, hG, hF', hG'⟩ :=
      teardown_mirrored hp (f := retired) (fun h => { h with }) hclosed hrelease hdrop
    have hframe' : u'.frame = (retired (unprobed { s' with life := .closed })).frame :=
      hG'.trans (congrArg (fun F => { F with
        terminated := ⟨true⟩, mailbox := { F.mailbox with receiving := false } }) hF')
    have hqueue : u'.mailbox.queue = [] :=
      (congrArg (fun F => F.mailbox.queue) hframe').trans hrest'.queue
    have hset : u'.terminated.isSet = true := congrArg (fun F => F.terminated.isSet) hframe'
    refine ⟨Service.unattended u', attempt_of_ok (close_threaded hpatience hlife' hrest' hrelease'
      hdrop' hqueue hset), of_teardown s (Service.unattended (unprobed s')) { hu with } hrest
      { hrest' with probing := rfl, receiving := rfl } (hG.trans ?_) ?_⟩
    · exact congrArg (fun F => { F with terminated := ⟨true⟩ }) hF
    · exact congrArg (fun F => { F with mailbox := { F.mailbox with receiving := false } }) hframe'
  | closed halike hlife hlife' hset hset' hrest hrest' =>
    have hclosed : ∀ u : Session ω, u.life = .closed → u.terminated.isSet = true →
        attempt (Session.close p) u = (.ok (.ok ()), u) := by
      intro u hu hset
      refine attempt_of_ok ?_
      rw [close_closed p hu, hset]
      rfl
    rw [hclosed s hlife hset] at hrun
    cases hrun
    exact ⟨s', hclosed s' hlife' hset', .closed halike hlife hlife' hset hset' hrest hrest'⟩

theorem reconnect (hp : p.Oblivious R) (hpatience : 2 ≤ p.patience) (h : Abreast R s s')
    {options : Option Options} {r : Except Error Unit}
    (hrun : attempt (Session.reconnect p options) s = (.ok r, t)) :
    ∃ t', attempt (Session.reconnect p options) s' = (.ok r, t') ∧ Abreast R t t' := by
  have hsame := h.refusal_eq
  cases hrefusal : s.refusal with
  | some e =>
    have hrefused : ∀ u : Session ω, u.refusal = some e →
        attempt (Session.reconnect p options) u = (.ok (.error e), u) := by
      intro u hu
      unfold attempt Session.reconnect
      rw [get_bind_apply, hu]
      rfl
    rw [hrefused s hrefusal] at hrun
    cases hrun
    exact ⟨s', hrefused s' (hsame.symm.trans hrefusal), h⟩
  | none =>
    cases h with
    | idle _ hlife => simp [refusal, hlife] at hrefusal
    | closed _ hlife => simp [refusal, hlife] at hrefusal
    | opened halike hlife hlife' hrest hrest' =>
      obtain ⟨v, hrenew, rfl⟩ := attempt_reconnect_inCaller hlife hrun
      have hadopted : Alike R (adopted options { s with locked := true })
          (adopted options (ticketed s')) := by
        have hheld : Alike R { s with locked := true } (ticketed s') := { halike with }
        cases options with
        | none => exact hheld
        | some o => exact { hheld with link := congrArg (Link.adoptOptions · o) halike.link }
      have hkept : ∀ u : Session ω, (adopted options u).frame =
          { u.frame with options := (adopted options u).link.options } := by
        intro u
        cases options <;> rfl
      -- both renew the connection from where the options are taken over
      obtain ⟨v', hrenew', hv, hF, hF'⟩ := (matched_renew hp).run hadopted hrenew
      rw [hkept] at hF hF'
      have hqueue : v'.mailbox.queue = [] := congrArg (fun F => F.mailbox.queue) hF'
      refine ⟨_, attempt_reconnect_threaded hpatience hlife' hrest' hrenew' hqueue,
        .opened { hv with } ((congrArg Frame.life hF).trans hlife)
          ((congrArg Frame.life hF').trans hlife') ?_ ?_⟩
      · exact hrest.of_eq (congrArg Frame.registry hF) (congrArg Frame.mailbox hF)
          (congrArg Frame.handles hF)
      · exact AtRest.of_eq (s := replied s'.mailbox.tickets r (ticketed s'))
          { hrest' with queue := rfl } (congrArg Frame.registry hF')
          (congrArg (fun F => { F.mailbox with
            replies := (s'.mailbox.tickets, some r) :: F.mailbox.replies }) hF')
          (congrArg Frame.handles hF')

theorem submit (hp : p.Oblivious R) (hpatience : 2 ≤ p.patience) (h : Abreast R s s')
    {task : Task} (hbuiltIn : task.work.isBuiltIn = true) {r : Except Error (Option Outcome)}
    (hrun : attempt (Session.submit p task) s = (.ok r, t)) :
    (∃ e, r = .error e ∧ t = s ∧ attempt (Session.submit p task) s' = (.ok (.error e), s')) ∨
      ∃ v t', Task.perform p task.keepingEvents { s with locked := true } = (.ok (), v) ∧
        t = { v with locked := false } ∧ r = .ok (some v.active.outcome) ∧
        attempt (Session.submit p task) s' = (.ok (.ok none), queued s' task) ∧
        settle p (queued s' task) = (.ok (), t') ∧ Abreast R t t' := by
  have hsame := h.refusal_eq
  cases hrefusal : s.refusal with
  | some e =>
    have hrefused : ∀ u : Session ω, u.refusal = some e →
        attempt (Session.submit p task) u = (.ok (.error e), u) := by
      intro u hu
      unfold attempt Session.submit assign
      rw [get_bind_apply, bind_apply, get_bind_apply, hu]
      rfl
    rw [hrefused s hrefusal] at hrun
    cases hrun
    exact .inl ⟨e, rfl, rfl, hrefused s' (hsame.symm.trans hrefusal)⟩
  | none =>
    cases h with
    | idle _ hlife => simp [refusal, hlife] at hrefusal
    | closed _ hlife => simp [refusal, hlife] at hrefusal
    -- only an open session takes a task: one runs it at once, the other when it settles
    | opened halike hlife hlife' hrest hrest' =>
      obtain ⟨v, hperform, rfl, rfl⟩ := exists_of_submit_inCaller hlife hrun
      obtain ⟨v', hperform', hv, hF, hF'⟩ :=
        perform_mirrored hp hbuiltIn halike hrest.registry hrest'.registry hperform
      have hinCaller : v.life = .inCaller := (congrArg Frame.life hF).trans hlife
      rw [if_pos hinCaller]
      refine .inr ⟨v, { v' with handles := s'.handles }, hperform, rfl, rfl,
        attempt_of_ok (submit_threaded task hlife' hrest'),
        settle_queued hpatience hrest' hperform'
          ⟨congrArg Frame.mailbox hF', congrArg Frame.handles hF'⟩,
        .opened { hv with } hinCaller ((congrArg Frame.life hF').trans hlife') ?_ ?_⟩
      · exact hrest.of_eq (congrArg Frame.registry hF) (congrArg Frame.mailbox hF)
          (congrArg Frame.handles hF)
      · exact AtRest.of_eq (s := { s' with mailbox := { s'.mailbox with queue := [] } })
          { hrest' with queue := rfl } ((congrArg Frame.registry hF').trans hrest'.registry.symm)
          (congrArg Frame.mailbox hF') rfl

end Abreast

/-- What one caller asks for who waits until it is done. -/
inductive Order where
  | start
  | execute (t : Task)
  | submit (t : Task)
  | reconnect (options : Option Options)
  | close
  /-- Time passes: the heartbeat ticks, if it runs, and the worker does what it finds. -/
  | wait

namespace Order

def carryOut (p : Parties ω) : Order → Run ω Answer
  | .start => call p .start
  | .execute t => call p (.execute t)
  | .submit t => call p (.submit t)
  | .reconnect options => call p (.reconnect options)
  | .close => call p .close
  | .wait => do
    modify Service.tick
    settle p
    return .unit

def task? : Order → Option Task
  | .execute t | .submit t => some t
  | _ => none

/-- Its task has not begun, and its events are not kept yet. -/
def Fresh (o : Order) : Prop := ∀ t ∈ o.task?, t.Fresh ∧ t.courier.recorded = none

def carryOutAll (p : Parties ω) (orders : List Order) : Run ω Unit :=
  orders.forM fun o => do let _ ← o.carryOut p

end Order

theorem exists_of_call {α : Type} {c : Call} {m : Run ω α} {wrap : Except Error α → Answer}
    {a : Answer} (hc : perform p c = wrap <$> attempt m) (hrun : call p c s = (.ok a, t)) :
    ∃ r u, attempt m s = (.ok r, u) ∧ settle p u = (.ok (), t) ∧ a = wrap r := by
  rw [call, hc, map_eq_pure_bind] at hrun
  obtain ⟨b, u, hb, hrun⟩ := exists_of_bind_ok hrun
  obtain ⟨r, _, hr, hb⟩ := exists_of_bind_ok hb
  cases hb
  obtain ⟨_, _, hsettle, hrun⟩ := exists_of_bind_ok hrun
  cases hrun
  exact ⟨r, u, hr, hsettle, rfl⟩

theorem call_of_attempt {α : Type} {c : Call} {m : Run ω α} {wrap : Except Error α → Answer}
    {r : Except Error α} {u : Session ω} (hc : perform p c = wrap <$> attempt m)
    (hrun : attempt m s = (.ok r, u)) (hsettle : settle p u = (.ok (), t)) :
    call p c s = (.ok (wrap r), t) := by
  have hperform : perform p c s = (.ok (wrap r), u) := by
    rw [hc, map_eq_pure_bind, bind_of_ok hrun]
    rfl
  rw [call, bind_of_ok hperform, bind_of_ok hsettle]
  rfl

/-- A call that leaves nothing to do has the same answer in both. -/
theorem call_agrees {α : Type} (hpatience : 2 ≤ p.patience) {c : Call} {m : Run ω α}
    {wrap : Except Error α → Answer} {a : Answer} (hc : perform p c = wrap <$> attempt m)
    (hm : ∀ {r u}, attempt m s = (.ok r, u) → ∃ u', attempt m s' = (.ok r, u') ∧ Abreast R u u')
    (hrun : call p c s = (.ok a, t)) :
    ∃ t', call p c s' = (.ok a, t') ∧ Abreast R t t' := by
  obtain ⟨r, u, hattempt, hsettle, rfl⟩ := exists_of_call hc hrun
  obtain ⟨u', hattempt', hu⟩ := hm hattempt
  rw [settle_atRest (by omega) hu.rest] at hsettle
  cases hsettle
  obtain ⟨served, hrest⟩ := hu.exists_rest
  exact ⟨u', call_of_attempt hc hattempt' (settle_atRest (by omega) hrest), hu⟩

/-- What the caller is told of a task that ran: all its events, which are those its sink was given,
and the state that closed it. -/
structure Told (t : Task) (out : Outcome) (new : Log) : Prop where
  whole : ∃ closing, Task.Whole t.requestId false out.events closing ∧ out.state = closing.state
  delivered : Log.deliveries new =
    if t.courier.sink = .discard then [] else out.events.map (Prod.mk t.courier.sink)

/-- The answers to an order in the caller's session and in the worker's: the same one, except that
only the caller's session has an outcome to tell. -/
inductive Order.Agrees (o : Order) (s t : Session (Log × ω)) : Answer → Answer → Prop where
  | same {a : Answer} (htask : o.task? = none) : Agrees o s t a a
  | refused {task : Task} {e : Error} (htask : o.task? = some task) (hlog : t.log = s.log) :
      Agrees o s t (.outcome (.error e)) (.outcome (.error e))
  | ran {task : Task} {out : Outcome} {new : Log} (htask : o.task? = some task)
      (hlog : t.log = s.log ++ new) (htold : Told task out new) :
      Agrees o s t (.outcome (.ok (some out))) (.outcome (.ok none))

/-- Execution times and the mode aside, both sessions show the same, and have asked the same of
everybody. -/
structure SameView (s s' : Session (Log × ω)) : Prop where
  log : Log.untimed s.log = Log.untimed s'.log
  status : ∀ thread, (s.status thread).map LastRunStats.untimed =
    (s'.status thread).map LastRunStats.untimed
  info : s.info.without "threaded" = s'.info.without "threaded"
  defaultSchema : s.published.defaultSchema = s'.published.defaultSchema

/-- Each order is answered in both sessions, and after each of them they show the same. -/
inductive Agree (p : Parties ω) :
    List Order → Session (Log × ω) → Session (Log × ω) → Prop where
  | done {s s' : Session (Log × ω)} : Agree p [] s s'
  | next {o : Order} {orders : List Order} {s s' t t' : Session (Log × ω)} {a a' : Answer}
      (hrun : o.carryOut p.logged s = (.ok a, t)) (hrun' : o.carryOut p.logged s' = (.ok a', t'))
      (hanswers : o.Agrees s t a a') (hview : SameView t t') (hrest : Agree p orders t t') :
      Agree p (o :: orders) s s'

theorem Alike.sameView {s s' : Session (Log × ω)} (h : Alike (Log.Related R) s s') :
    SameView s s' where
  log := h.outside.1
  status := by
    intro thread
    unfold status
    rw [h.statsHeld]
    split
    · rfl
    · exact congrArg Except.ok h.stats
  info := by
    unfold info
    rw [h.published, h.autoReconnect, h.id]
    cases s'.published.info with
    | object fields =>
      have hmode : Fields.SameBut "threaded" ("threaded", .bool s.settings.threaded)
        ("threaded", .bool s'.settings.threaded) := ⟨rfl, fun hne => absurd rfl hne⟩
      refine congrArg Json.object (Fields.erase_eq_of_forall₂ (Fields.forall₂_insert (.refl _ _)
        (Fields.forall₂_insert hmode (Fields.forall₂_insert (.refl _ _) ?_))))
      exact List.forall₂_same.mpr fun f _ => .refl _ f
    | _ => rfl
  defaultSchema := by rw [h.published]

theorem told_of_perform {task : Task} (hfresh : task.Fresh) (hkept : task.courier.recorded = none)
    {s v : Session (Log × ω)} (hmarked : Task.marked task s = false)
    (hrun : Task.perform p.logged task.keepingEvents s = (.ok (), v)) :
    ∃ new, v.log = s.log ++ new ∧ Told task v.active.outcome new := by
  have hkeeping : task.keepingEvents.Fresh := { hfresh with }
  obtain ⟨new, events, closing, hlog, hended⟩ := Task.perform_whole p hkeeping hrun (by simp)
  have hwhole := hended.whole
  change Task.Whole task.requestId (Task.marked task s) events closing at hwhole
  rw [hmarked] at hwhole
  have hevents : v.active.outcome.events = events := by
    have hrecorded := hended.recorded
    change v.active.courier.recorded = some (task.courier.recorded.getD [] ++ events) at hrecorded
    change v.active.courier.recorded.getD [] = events
    rw [hrecorded, hkept]
    rfl
  have hstate : v.active.outcome.state = closing.state := by
    change v.active.courier.terminal.getD .pending = _
    rw [hended.terminal]
    rfl
  refine ⟨new, hlog, ⟨closing, ?_, hstate⟩, ?_⟩
  · rw [hevents]
    exact hwhole
  · rw [hevents]
    exact hended.delivered

theorem task_agrees (hp : p.Oblivious R) (hpatience : 2 ≤ p.patience) {o : Order} {task : Task}
    {c : Call} {m : Run (Log × ω) (Option Outcome)} {s s' t u u' : Session (Log × ω)} {a : Answer}
    (hfresh : o.Fresh) (htask : o.task? = some task) (ho : o.carryOut p.logged = call p.logged c)
    (hc : perform p.logged c = Answer.outcome <$> attempt m)
    (hu : attempt m s = attempt (submit p.logged task) u)
    (hu' : attempt m s' = attempt (submit p.logged task) u')
    (h : Abreast (Log.Related R) u u') (hlog : u.log = s.log)
    (hrun : o.carryOut p.logged s = (.ok a, t)) :
    ∃ a' t', o.carryOut p.logged s' = (.ok a', t') ∧ o.Agrees s t a a' ∧
      Abreast (Log.Related R) t t' := by
  obtain ⟨hnew, hkept⟩ := hfresh task (by rw [htask]; rfl)
  have hpos : 0 < p.logged.patience := Nat.lt_of_lt_of_le Nat.zero_lt_two hpatience
  rw [ho] at hrun ⊢
  obtain ⟨r, v, hattempt, hsettle, rfl⟩ := exists_of_call hc hrun
  rw [hu] at hattempt
  rcases h.submit hp.logged hpatience hnew.builtIn hattempt with
    ⟨e, rfl, rfl, hattempt'⟩ | ⟨w, v', hperform, rfl, rfl, hattempt', hsettle', hv⟩
  · rw [settle_atRest hpos h.rest] at hsettle
    cases hsettle
    obtain ⟨served, hrest⟩ := h.exists_rest
    exact ⟨_, u', call_of_attempt hc (hu'.trans hattempt') (settle_atRest hpos hrest),
      .refused htask hlog, h⟩
  · rw [settle_atRest hpos hv.rest] at hsettle
    cases hsettle
    have hmarked : Task.marked task { u with locked := true } = false := by
      change (u.registry.beginOptional _).1 = false
      rw [h.rest.registry]
      cases task.requestId <;> rfl
    obtain ⟨new, hgrown, htold⟩ := told_of_perform hnew hkept hmarked hperform
    refine ⟨_, v', call_of_attempt hc (hu'.trans hattempt') hsettle', .ran htask ?_ htold, hv⟩
    exact hgrown.trans (congrArg (· ++ new) hlog)

theorem wait_atRest (hpatience : 0 < p.patience) {served : Bool} (h : AtRest served s) :
    Order.wait.carryOut p s = (.ok .unit, s) := by
  have htick : Service.tick s = s := by
    rw [Service.tick, h.probing]
    rfl
  change (settle p >>= fun _ => pure Answer.unit) (Service.tick s) = _
  rw [htick, bind_of_ok (settle_atRest hpatience h)]
  rfl

/-- One order keeps the two sessions abreast. -/
theorem order_agrees (hp : p.Oblivious R) (hpatience : 2 ≤ p.patience) {o : Order}
    (hfresh : o.Fresh) {s s' t : Session (Log × ω)} {a : Answer}
    (h : Abreast (Log.Related R) s s') (hrun : o.carryOut p.logged s = (.ok a, t)) :
    ∃ a' t', o.carryOut p.logged s' = (.ok a', t') ∧ o.Agrees s t a a' ∧
      Abreast (Log.Related R) t t' := by
  have hlogged : 2 ≤ p.logged.patience := hpatience
  cases o with
  | start =>
    obtain ⟨t', hrun', ht⟩ := call_agrees hlogged rfl (h.start hp.logged) hrun
    exact ⟨a, t', hrun', .same rfl, ht⟩
  | reconnect options =>
    obtain ⟨t', hrun', ht⟩ := call_agrees hlogged rfl (h.reconnect hp.logged hlogged) hrun
    exact ⟨a, t', hrun', .same rfl, ht⟩
  | close =>
    obtain ⟨t', hrun', ht⟩ := call_agrees hlogged rfl (h.close hp.logged hlogged) hrun
    exact ⟨a, t', hrun', .same rfl, ht⟩
  | submit task => exact task_agrees hp hpatience hfresh rfl rfl rfl rfl rfl h rfl hrun
  | execute task =>
    -- a kill is lifted before the task is submitted
    have hlifted : ∀ u : Session (Log × ω), attempt (execute p.logged task) u =
        attempt (submit p.logged task) { u with killed := false } := by
      intro u
      rw [attempt, attempt, execute, bind_apply, modify_apply]
    exact task_agrees hp hpatience hfresh rfl rfl rfl (hlifted s) (hlifted s') h.revived rfl hrun
  | wait =>
    have hpos : 0 < p.logged.patience := Nat.lt_of_lt_of_le Nat.zero_lt_two hpatience
    rw [wait_atRest hpos h.rest] at hrun
    cases hrun
    obtain ⟨served, hrest⟩ := h.exists_rest
    exact ⟨.unit, s', wait_atRest hpos hrest, .same rfl, h⟩

theorem orders_agree (hp : p.Oblivious R) (hpatience : 2 ≤ p.patience) {orders : List Order}
    (hfresh : ∀ o ∈ orders, o.Fresh) {s s' t : Session (Log × ω)}
    (h : Abreast (Log.Related R) s s')
    (hrun : Order.carryOutAll p.logged orders s = (.ok (), t)) : Agree p orders s s' := by
  induction orders generalizing s s' with
  | nil => exact .done
  | cons o orders ih =>
    obtain ⟨_, s₁, hfirst, hrun⟩ := exists_of_bind_ok hrun
    obtain ⟨a, _, hfirst, ⟨⟩⟩ := exists_of_bind_ok hfirst
    obtain ⟨a', s₁', hfirst', hanswers, hs₁⟩ :=
      order_agrees hp hpatience (hfresh o (by simp)) h hfirst
    exact .next hfirst hfirst' hanswers hs₁.alike.sameView
      (ih (fun o ho => hfresh o (by simp [ho])) hs₁ hrun)

/-- Where the tasks of a session run makes no difference to a caller who waits for each order to be
done: if nothing panics or hangs in a session that runs them in the caller, then one with a worker
gives the same answers, asks the same of everybody in the same order, and shows the same. -/
theorem threaded_agrees (id name : String) (options : Options) (settings : Settings) {w w' : ω}
    {orders : List Order} (hp : p.Oblivious R) (hpatience : 2 ≤ p.patience)
    (hprobe : options.probeInterval = none) (hw : R w w') (hfresh : ∀ o ∈ orders, o.Fresh)
    (hok : (Order.carryOutAll p.logged orders
      (create id name options { settings with threaded := false } ([], w))).1 = .ok ()) :
    Agree p orders (create id name options { settings with threaded := false } ([], w))
      (create id name options { settings with threaded := true } ([], w')) := by
  have hrest : ∀ (settings : Settings) (w : ω),
      AtRest false (create id name options settings (([] : Log), w)) := fun _ _ =>
    ⟨rfl, rfl, rfl, rfl, Nat.zero_lt_one⟩
  have halike : Alike (Log.Related R)
      (create id name options { settings with threaded := false } ([], w))
      (create id name options { settings with threaded := true } ([], w')) :=
    ⟨rfl, rfl, rfl, rfl, rfl, rfl, rfl, rfl, rfl, rfl, ⟨rfl, rfl, rfl, rfl, rfl, rfl, rfl, rfl⟩,
      rfl, hw⟩
  exact orders_agree hp hpatience hfresh
    (.idle halike rfl rfl rfl rfl hprobe (hrest _ w) (hrest _ w')) (Prod.ext hok rfl)

section Paces

/-- A world in which everything takes its time, and some statements lose the connection. -/
structure Bench where
  time : Nat := 0
  pace : Nat := 1
  losses : Nat := 0
  schema : Option String := none

namespace Bench

def later (b : Bench) : Bench := { b with time := b.time + b.pace }

def pass : Play Bench Unit := .modify later

def execute : Play Bench Unit := fun b =>
  if b.losses = 0 then .done (.ok ()) b.later
  else .done (.error (.error (.unconnected .driver))) { b.later with losses := b.losses - 1 }

def parties : Parties Bench where
  backend := {
    name := "Bench"
    connect := fun _ => pass
    disconnect := pass
    release := pass
    isConnected := fun _ => true
    execute := fun _ _ => execute
    columns := pure []
    fetchRow := pure none
    nextResult := pure false
    stats := pure { rowsAffected := 1 }
    ping := pass
    info := pure (.object [("backend", .string "Bench")])
    defaultSchema := pure none
    currentSchema := fun b => .done (.ok b.schema) b.later
    setCurrentSchema := fun schema b => .done (.ok ()) { b.later with schema := some schema }
    interrupter := pure none
    dispose := pass }
  post := fun _ _ b => b.later
  callback := fun _ _ => pass
  custom := fun _ => ⟨fun _ b => .done (.ok ()) b, pass, fun _ => pass, pure {}⟩
  interrupt := fun _ b => b
  clock := time
  patience := 2

/-- The same world at another time or pace. -/
def Same (b b' : Bench) : Prop := b.losses = b'.losses ∧ b.schema = b'.schema

theorem parallel_pure {α : Type} (a : α) : Play.Parallel Same (pure a) (pure a) :=
  fun b b' h => ⟨.ok a, b, b', rfl, rfl, h⟩

theorem parallel_pass : Play.Parallel Same pass pass :=
  fun b b' h => ⟨.ok (), b.later, b'.later, rfl, rfl, h⟩

theorem parallel_execute : Play.Parallel Same execute execute := by
  rintro b b' ⟨hlosses, hschema⟩
  unfold execute
  rw [← hlosses]
  split
  · exact ⟨_, _, _, rfl, rfl, hlosses, hschema⟩
  · exact ⟨_, _, _, rfl, rfl, rfl, hschema⟩

theorem oblivious : parties.Oblivious Same where
  backend := {
    connect := fun _ => parallel_pass
    disconnect := parallel_pass
    release := parallel_pass
    execute := fun _ _ => parallel_execute
    columns := parallel_pure _
    fetchRow := parallel_pure _
    nextResult := parallel_pure _
    stats := parallel_pure _
    info := parallel_pure _
    defaultSchema := parallel_pure _
    currentSchema := fun b b' h => ⟨.ok b.schema, b.later, b'.later, rfl, by
      rw [h.2]
      rfl, h⟩
    setCurrentSchema := fun schema b b' h =>
      ⟨.ok (), { b.later with schema := some schema }, { b'.later with schema := some schema },
        rfl, rfl, h.1, rfl⟩
    interrupter := parallel_pure _
    dispose := parallel_pass }
  hooks := fun _ hhook => absurd hhook List.not_mem_nil
  connectionObservers := fun _ hobserve => absurd hobserve List.not_mem_nil
  taskObservers := fun _ hobserve => absurd hobserve List.not_mem_nil
  post := fun _ _ _ _ _ _ h => h
  callback := fun _ _ _ _ => parallel_pass

def insert : Task := { work := .query (.ofText "INSERT"), courier := { sink := .channel 1 } }

def switch : Task := { work := .schema (.setCurrent "main"), courier := { sink := .callback 1 } }

/-- The first statement loses its connection and is run again on another one. -/
def orders : List Order :=
  [.start, .execute insert, .submit switch, .wait, .reconnect none, .close, .execute insert]

def session (threaded : Bool) (b : Bench) : Session (Log × Bench) :=
  create "s1" "Bench" { autoReconnect := true } { threaded } ([], b)

theorem fresh : ∀ o ∈ orders, o.Fresh := by
  have hinsert : insert.Fresh ∧ insert.courier.recorded = none := ⟨⟨rfl, rfl, rfl, rfl⟩, rfl⟩
  have hswitch : switch.Fresh ∧ switch.courier.recorded = none := ⟨⟨rfl, rfl, rfl, rfl⟩, rfl⟩
  simp [orders, Order.Fresh, Order.task?, hinsert, hswitch]

end Bench

open Bench in
/-- A session with a worker in a world that is three times as slow: only the times differ. -/
theorem threaded_agrees_slow :
    Agree parties orders (session false { losses := 1 }) (session true { losses := 1, pace := 3 }) ∧
      (Order.carryOutAll parties.logged (orders.take 2) (session false { losses := 1 })).2.stats =
        { lastExecutionTime := some ⟨0, 6⟩, rowsAffected := 1 } ∧
      (Order.carryOutAll parties.logged (orders.take 2)
          (session true { losses := 1, pace := 3 })).2.stats =
        { lastExecutionTime := some ⟨0, 18⟩, rowsAffected := 1 } := by
  have hok : (Order.carryOutAll parties.logged orders (session false { losses := 1 })).1 =
      .ok () := by decide +kernel
  exact ⟨threaded_agrees "s1" "Bench" { autoReconnect := true } {} oblivious (by decide) rfl
    ⟨rfl, rfl⟩ fresh hok, by decide +kernel, by decide +kernel⟩

end Paces
end Session
end DatabaseSession
