import DatabaseSession.Proofs.Jobs
import DatabaseSession.Proofs.Opening
import DatabaseSession.Proofs.Reconnects
import DatabaseSession.Proofs.Rhythm

namespace DatabaseSession

open Course Run Session

variable {ω : Type}

def Request.isProbe : Request → Bool
  | .probe => true
  | _ => false

namespace Session

def probes (s : Session ω) : Nat := s.mailbox.queue.countP Request.isProbe

/-- The pings in the log between one state and a later one. -/
def pingsSince (s s' : Session (Log × ω)) : List Pulse :=
  (Log.calls (s'.log.drop s.log.length)).filterMap Duty.pulse?

structure Offbeat (s s' : Session ω) : Prop where
  receiving : s'.mailbox.receiving = s.mailbox.receiving
  probePending : s'.mailbox.probePending = s.mailbox.probePending
  probing : s'.mailbox.probing = s.mailbox.probing
  probes : s'.probes = s.probes
  begun : s'.life = .idle → s.life = .idle

namespace Offbeat

theorem of_eq {s s' : Session ω} (hmail : s'.mailbox = s.mailbox) (hlife : s'.life = s.life) :
    Offbeat s s' :=
  ⟨by rw [hmail], by rw [hmail], by rw [hmail], by rw [Session.probes, hmail, Session.probes],
    fun h => hlife ▸ h⟩

theorem refl (s : Session ω) : Offbeat s s := .of_eq rfl rfl

theorem trans {a b c : Session ω} (h : Offbeat a b) (h' : Offbeat b c) : Offbeat a c where
  receiving := h'.receiving.trans h.receiving
  probePending := h'.probePending.trans h.probePending
  probing := h'.probing.trans h.probing
  probes := h'.probes.trans h.probes
  begun := h.begun ∘ h'.begun

end Offbeat

theorem sendRequest_offbeat (s : Session ω) (request : Request) (h : request.isProbe = false) :
    Offbeat s (s.sendRequest request).2 := by
  unfold sendRequest
  split
  · exact ⟨rfl, rfl, rfl, by simp [probes, Mailbox.push, h], fun hl => hl⟩
  · exact .refl s

theorem requestClose_offbeat (s : Session ω) : Offbeat s s.requestClose :=
  { sendRequest_offbeat s .close rfl with begun := by simp [requestClose] }

theorem giveUpHandle_offbeat (s : Session ω) : Offbeat s s.giveUpHandle := by
  have hleft : Offbeat s { s with handles := s.handles - 1 } := .of_eq rfl rfl
  unfold giveUpHandle
  dsimp only
  split
  · exact hleft.trans (requestClose_offbeat _)
  · exact hleft

theorem enqueue_offbeat (s : Session ω) (t : Task) : Offbeat s (s.enqueue t).2 := by
  have hsend := sendRequest_offbeat
    { s with registry := s.registry.enqueueOptional t.requestId } (.task t) rfl
  unfold enqueue
  dsimp only
  rcases hr : sendRequest { s with registry := s.registry.enqueueOptional t.requestId }
    (.task t) with ⟨_ | _, s₁⟩ <;> rw [hr] at hsend <;>
    exact ⟨hsend.receiving, hsend.probePending, hsend.probing, hsend.probes, hsend.begun⟩

theorem answerSubmission_offbeat (s : Session ω) (t : Task) (wrap : Except Error Unit → Answer) :
    Offbeat s (s.answerSubmission t wrap).2 := by
  rcases answerSubmission_cases s t wrap with h | ⟨e, h⟩ | ⟨-, h⟩ <;> rw [h]
  · exact .refl s
  · exact .refl s
  · exact enqueue_offbeat s t

theorem requestReconnect_offbeat (s : Session ω) (options : Option Options) :
    Offbeat s (s.requestReconnect options).2 := by
  have hsend := sendRequest_offbeat s (.reconnect options s.mailbox.tickets) rfl
  unfold requestReconnect
  dsimp only
  rcases hr : s.sendRequest (.reconnect options s.mailbox.tickets) with ⟨_ | _, s₁⟩ <;>
    rw [hr] at hsend <;>
    exact ⟨hsend.receiving, hsend.probePending, hsend.probing, hsend.probes, hsend.begun⟩

theorem answer_offbeat (p : Parties ω) (thread : Thread) (call : Call) (s : Session ω) :
    Offbeat s (answer p thread call s).2 := by
  have h := answer_answered p thread call s
  generalize (answer p thread call s).2 = s' at h ⊢
  cases h with
  | unchanged _ => exact .refl s
  | closes _ => exact requestClose_offbeat s
  | reconnects options | queuesReconnect options => exact requestReconnect_offbeat s options
  | executes t =>
    have hrevived : Offbeat s { s with killed := false } := .of_eq rfl rfl
    exact hrevived.trans (answerSubmission_offbeat _ t _)
  | submits t | assigns t => exact answerSubmission_offbeat s t _
  | kills | cancels _ | takes _ | clones => exact .of_eq rfl rfl
  | drops => exact giveUpHandle_offbeat s

/-- Whoever is called on, and whoever uses the session meanwhile, the keep-alives are left alone. -/
theorem offbeat_growth (p : Parties ω) (P : Duty → Prop) :
    Growth p P (Offbeat (ω := Log × ω)) where
  trans := .trans
  unmoved h := ⟨h.receiving, h.probePending, h.probing,
    by rw [Session.probes, h.queue, Session.probes], fun hl => h.life ▸ hl⟩
  elsewhere _ _ := .of_eq rfl rfl
  called _ _ _ := .of_eq rfl rfl
  returned _ _ _ := .of_eq rfl rfl
  asked {thread call a s s'} ha := by
    have h := answer_offbeat p.logged thread call s
    rw [ha] at h
    exact h.trans (.of_eq rfl rfl)
  unanswered {thread call s s'} ha := by
    have h := answer_offbeat p.logged thread call s
    rw [ha] at h
    exact h

/-- A change in which nothing is pinged, and after which no session is one that was never started
if it was not before. -/
structure Unpinged (s s' : Session (Log × ω)) : Prop where
  log : ∃ new, s'.log = s.log ++ new ∧ ∀ d ∈ Log.calls new, d ≠ .ping
  begun : s'.life = .idle → s.life = .idle

namespace Unpinged

theorem of_eq {s s' : Session (Log × ω)} (hlog : s'.log = s.log) (hlife : s'.life = s.life) :
    Unpinged s s' :=
  ⟨⟨[], by simp [hlog], by simp⟩, fun h => hlife ▸ h⟩

theorem refl (s : Session (Log × ω)) : Unpinged s s := .of_eq rfl rfl

theorem trans {a b c : Session (Log × ω)} (h : Unpinged a b) (h' : Unpinged b c) :
    Unpinged a c where
  log := (calling ω fun d => d ≠ .ping).trans h.log h'.log
  begun := h.begun ∘ h'.begun

theorem ofInterlude {asides : Log} {s s' : Session (Log × ω)} (h : Interlude asides s s') :
    Unpinged s s' where
  log := ⟨asides, h.log, by simp [Log.calls_asides h.aside]⟩
  begun := by
    rcases h.life with hl | ⟨-, hl, -⟩
    · exact fun hidle => hl ▸ hidle
    · simp [hl]

end Unpinged

theorem unpinged_growth (p : Parties ω) : Growth p (· ≠ .ping) (Unpinged (ω := ω)) where
  trans := .trans
  unmoved h := .of_eq (by rw [Session.log, h.outside, Session.log]) h.life
  elsewhere s w := .ofInterlude (.ofOutside s w)
  called s _ hd := ⟨⟨[_], rfl, by simpa using hd⟩, fun hl => hl⟩
  returned s _ _ := ⟨⟨[_], rfl, by simp⟩, fun hl => hl⟩
  asked ha := by
    obtain ⟨asides, hi⟩ := answer_interlude p _ _ _ _ _ ha
    exact .ofInterlude hi
  unanswered ha := .ofInterlude (unanswered_interlude p _ _ _ _ ha)

structure Bypasses (s s' : Session (Log × ω)) : Prop where
  offbeat : Offbeat s s'
  unpinged : Unpinged s s'

theorem Bypasses.of_eq {s s' : Session (Log × ω)} (hmail : s'.mailbox = s.mailbox)
    (hlife : s'.life = s.life) (hlog : s'.log = s.log) : Bypasses s s' :=
  ⟨.of_eq hmail hlife, .of_eq hlog hlife⟩

theorem bypass_growth (p : Parties ω) : Growth p (· ≠ .ping) (Bypasses (ω := ω)) :=
  have hoff := offbeat_growth p (· ≠ .ping)
  have hun := unpinged_growth p
  { trans := fun h h' => ⟨h.offbeat.trans h'.offbeat, h.unpinged.trans h'.unpinged⟩
    unmoved := fun h => ⟨hoff.unmoved h, hun.unmoved h⟩
    elsewhere := fun s w => ⟨hoff.elsewhere s w, hun.elsewhere s w⟩
    called := fun s _ hd => ⟨hoff.called s hd, hun.called s hd⟩
    returned := fun s d x => ⟨hoff.returned s d x, hun.returned s d x⟩
    asked := fun ha => ⟨hoff.asked ha, hun.asked ha⟩
    unanswered := fun ha => ⟨hoff.unanswered ha, hun.unanswered ha⟩ }

end Session

namespace Duty

theorem ne_ping_of_isConnecting {kind : Attempt → Bool} {d : Duty}
    (hd : d.isConnecting kind = true) : d ≠ .ping := by
  rintro rfl
  cases hd

theorem ne_ping_of_isPublishing {d : Duty} (hd : d.isPublishing = true) : d ≠ .ping := by
  rintro rfl
  cases hd

theorem ne_ping_of_isTeardown {d : Duty} (hd : d.isTeardown = true) : d ≠ .ping := by
  rintro rfl
  cases hd

theorem ne_ping_of_isTaskwork {d : Duty} (hd : d.isTaskwork = true) : d ≠ .ping := by
  rintro rfl
  cases hd

end Duty

variable (p : Parties ω)

namespace Link

theorem bypass_covers : Covers (bypass_growth p).course p fun _ => true :=
  grows_covers (bypass_growth p) fun _ => Duty.ne_ping_of_isConnecting

theorem bypass_release : Follows (bypass_growth p).course (release p.logged) :=
  follows_release (fun _ => .of_eq rfl rfl rfl)
    (fun _ _ _ => (bypass_growth p).permits (by simp) _) ((bypass_growth p).permits (by simp) _)

theorem bypass_drop : Follows (bypass_growth p).course (drop p.logged) :=
  follows_drop (bypass_release p) ((bypass_growth p).permits (by simp) _) fun h => h

end Link

namespace Task

theorem bypass_emits : Emits p (Bypasses (ω := ω)) :=
  (bypass_growth p).emits (fun _ _ => .of_eq rfl rfl rfl) fun _ _ => by simp

theorem bypass_perform (t : Task) : Follows (bypass_growth p).course (perform p.logged t) := by
  refine (bypass_growth p).follows fun s => ?_
  have htake : Bypasses s (takeUp t s) := .of_eq rfl rfl rfl
  exact (bypass_growth p).trans htake (grows_perform (bypass_growth p) (bypass_emits p)
    (fun _ => Duty.ne_ping_of_isTaskwork) (fun _ _ => by simp) s)

end Task

theorem Session.unpinged_tends : Tends (unpinged_growth p).course p := by
  refine (unpinged_growth p).tends (fun {s s'} h => ?_)
    ((unpinged_growth p).emits (fun _ _ => .of_eq rfl rfl) fun _ _ => by simp)
    (fun _ => Duty.ne_ping_of_isTeardown) fun _ => by simp
  obtain ⟨new, hlog, hcalls⟩ := h.log
  exact ⟨⟨new, hlog, by simp [hcalls]⟩, h.begun⟩

namespace Service

theorem bypass_dropTask (t : Task) :
    Follows (bypass_growth p).course (modify (dropTask t) : Run (Log × ω) Unit) := by
  refine follows_modify fun s => ⟨?_, ?_⟩
  · unfold dropTask
    split
    · exact giveUpHandle_offbeat s
    · exact .refl s
  · exact .ofInterlude (.ofFiled (dropTask_filed t s))

theorem bypass_handle {request : Request} (hother : request.isProbe = false) :
    Follows (bypass_growth p).course (handle p.logged request) := by
  cases request with
  | close => exact follows_pure false
  | reconnect options ticket =>
    exact follows_bind (grows_handleReconnect (bypass_growth p)
      (fun _ => Duty.ne_ping_of_isConnecting) (fun _ => Duty.ne_ping_of_isPublishing) options
      ticket) fun _ => follows_pure true
  | probe => cases hother
  | task t =>
    exact follows_bind (follows_ensuring (Task.bypass_perform p t) (bypass_dropTask p t)
      fun h => h) fun _ => follows_pure true

theorem bypass_startup : Follows (bypass_growth p).course (startup p.logged) := by
  have hconnect : Follows (bypass_growth p).course (Link.connect p.logged) :=
    Link.follows_connect (Link.bypass_covers p) rfl
  refine follows_bind (follows_attempt hconnect) fun r => ?_
  cases r with
  | ok _ =>
    exact follows_bind (Link.grows_publish (bypass_growth p)
      fun _ => Duty.ne_ping_of_isPublishing) fun _ => follows_pure _
  | error e =>
    exact follows_bind (Link.bypass_release p) fun _ => follows_bind
      (follows_modify fun _ => .of_eq rfl rfl rfl) fun _ => follows_pure _

variable {p} {s s' : Session (Log × ω)}

theorem launch_offbeat {x : Except Stop (Except Error Unit)}
    (hrun : launch p.logged s = (x, s')) (hx : x ≠ .error .hang)
    (hattended : s'.mailbox.receiving = true) :
    s'.mailbox.probePending = s.mailbox.probePending ∧ s'.probes = s.probes := by
  have hgone : ∀ {m : Run (Log × ω) Unit} {y : Except Stop Unit} {v : Session (Log × ω)},
      Stops Unfailing m → exit p.logged m v = (y, s') → y ≠ .error .hang → False := by
    intro m y v hstop hexit hy
    exact absurd (hattended.symm.trans (exit_unattended hstop hexit hy)) (by simp)
  unfold launch at hrun
  rw [bind_apply, modify_apply] at hrun
  dsimp only at hrun
  rw [bind_apply, guarded] at hrun
  have hbypass := (bypass_growth p).grows (bypass_startup p)
    { s with mailbox := { s.mailbox with receiving := true } }
  rcases hstart : startup p.logged
    { s with mailbox := { s.mailbox with receiving := true } } with ⟨(e | q | _) | e | _, s₁⟩ <;>
    rw [hstart] at hrun hbypass <;> dsimp only at hrun
  · cases hrun
    exact ⟨hbypass.offbeat.probePending, hbypass.offbeat.probes⟩
  · obtain ⟨y, hexit, hy⟩ := bind_get_runs hrun hx
    exact (hgone (stops_ensuring (unfailing_hang rfl) (stops_panic q) (stops_windUp p.logged)) hexit
      hy).elim
  · cases hrun
    exact absurd rfl hx
  · obtain ⟨y, hexit, hy⟩ := bind_pure_runs hrun hx
    exact (hgone (stops_pure ()) hexit hy).elim
  · cases hrun
    exact ⟨hbypass.offbeat.probePending, hbypass.offbeat.probes⟩

end Service

namespace Session

variable {p : Parties ω} {s s' : Session (Log × ω)}

/-- A session is started: nothing is pinged, and if its worker takes requests from then on, the
keep-alives are as they were. -/
theorem start_offbeat (hlife : s.life = .idle) (hthreaded : s.settings.threaded = true)
    {x : Except Stop Unit} (hrun : start p.logged s = (x, s')) :
    Unpinged s s' ∧ s'.life ≠ .idle ∧ (x ≠ .error .hang → s'.mailbox.receiving = true →
      s'.mailbox.probePending = s.mailbox.probePending ∧ s'.probes = s.probes) := by
  have hclosed : Unpinged s { s with life := .closed } :=
    ⟨⟨[], by simp [Session.log], by simp⟩, by simp⟩
  have hcovers : Link.Covers (unpinged_growth p).course p fun _ => true :=
    Link.grows_covers (unpinged_growth p) fun _ => Duty.ne_ping_of_isConnecting
  have hopening : Follows (unpinged_growth p).course (Purpose.opening.carryOut p.logged) :=
    follows_bind (Link.follows_connect hcovers rfl) fun _ =>
      Link.grows_publish (unpinged_growth p) fun _ => Duty.ne_ping_of_isPublishing
  have hrest : Unpinged { s with life := .closed } s' := by
    have hheld : Unpinged { s with life := .closed } (s.held .opening) := .of_eq rfl rfl
    have hafter := (start_performs hlife).allows (unpinged_tends p)
    rw [hrun] at hafter
    exact (hheld.trans ((unpinged_growth p).grows hopening _)).trans hafter.grown
  refine ⟨hclosed.trans hrest, fun hidle => absurd (hrest.begun hidle) (by simp), ?_⟩
  rw [start_idle _ hlife, hthreaded] at hrun
  intro hx hattended
  obtain ⟨s₁, henter, rfl⟩ := holding_runs hrun hx
  rw [enter, if_pos rfl, bind_apply] at henter
  rcases hl : Service.launch p.logged { s with life := .closed, locked := true } with
    ⟨y, v⟩
  have hv : y ≠ .error .hang → v.mailbox.receiving = true →
      v.mailbox.probePending = s.mailbox.probePending ∧ v.probes = s.probes := by
    intro hy hrecv
    have hlaunch := Service.launch_offbeat hl hy hrecv
    exact hlaunch
  rw [hl] at henter
  rcases y with stop | e | _ <;> cases henter
  · exact hv (by simpa using hx) hattended
  · exact hv (by simp) hattended
  · exact hv (by simp) hattended

theorem bypass_closeHere : Follows (bypass_growth p).course (closeHere p.logged) :=
  follows_ensuring (follows_bind (Link.bypass_release p) fun _ =>
    follows_modify fun _ => .of_eq rfl rfl rfl) (Link.bypass_drop p) fun h => h

theorem closeHere_bypasses {x : Except Stop Unit}
    (hrun : closeHere p.logged { s with life := .closed } = (x, s')) :
    Bypasses s s' ∧ s'.life ≠ .idle := by
  have hclosed : Bypasses s { s with life := .closed } :=
    ⟨⟨rfl, rfl, rfl, rfl, by simp⟩, ⟨[], by simp [Session.log], by simp⟩, by simp⟩
  have hclose := (bypass_growth p).grows bypass_closeHere { s with life := .closed }
  rw [hrun] at hclose
  exact ⟨(bypass_growth p).trans hclosed hclose,
    fun hidle => absurd (hclose.offbeat.begun hidle) (by simp)⟩

theorem close_bypasses (hlife : s.life = .idle) {x : Except Stop Unit}
    (hrun : close p.logged s = (x, s')) : Bypasses s s' ∧ (s'.life = .idle → x = .ok ()) := by
  unfold close at hrun
  rw [get_bind_apply, hlife] at hrun
  obtain ⟨hb, hbegun⟩ := closeHere_bypasses hrun
  exact ⟨hb, fun hidle => absurd hidle hbegun⟩

theorem dropHandle_bypasses {x : Except Stop Unit} (hrun : dropHandle p.logged s = (x, s')) :
    Bypasses s s' ∧ (s'.life = .idle → x = .ok ()) := by
  have hleft : Bypasses s s.giveUpHandle :=
    ⟨giveUpHandle_offbeat s, .ofInterlude (.ofFiled (giveUpHandle_filed s))⟩
  rcases dropHandle_cases p.logged hrun with ⟨-, -, hrun⟩ | ⟨-, hx, rfl⟩
  · obtain ⟨hb, hbegun⟩ := closeHere_bypasses hrun
    exact ⟨(bypass_growth p).trans hleft hb, fun hidle => absurd hidle hbegun⟩
  · exact ⟨hleft, fun _ => hx⟩

end Session

namespace Session

variable {p : Parties ω} {s s' : Session (Log × ω)}

theorem pingsSince_of_log {new : Log} (h : s'.log = s.log ++ new) :
    pingsSince s s' = (Log.calls new).filterMap Duty.pulse? := by
  simp [pingsSince, h]

theorem pulse?_of_ne_ping {d : Duty} (h : d ≠ .ping) : d.pulse? = none := by
  cases d <;> first | rfl | exact absurd rfl h

theorem Unpinged.pingsSince (h : Unpinged s s') : pingsSince s s' = [] := by
  obtain ⟨new, hlog, hcalls⟩ := h.log
  rw [pingsSince_of_log hlog, List.filterMap_eq_nil_iff]
  exact fun d hd => pulse?_of_ne_ping (hcalls d hd)

/-- The worker pings at most once for a keep-alive, whatever it does about a lost connection. -/
theorem checkAlive_pings {x : Except Stop Unit} (hrun : Link.checkAlive p.logged s = (x, s')) :
    (∃ new, s'.log = s.log ++ new) ∧ (pingsSince s s' = [] ∨ pingsSince s s' = [.ping]) := by
  unfold Link.checkAlive at hrun
  rw [get_bind_apply] at hrun
  split at hrun
  · cases hrun
    exact ⟨⟨[], by simp⟩, .inl (Unpinged.refl s).pingsSince⟩
  · obtain ⟨new, hturned⟩ := party_logged p .ping p.backend.ping s
    -- whatever follows the ping, it is no ping
    have hpinged : ∀ {u}, Unpinged (party p.logged p.logged.backend.ping s).2 u →
        (∃ new, u.log = s.log ++ new) ∧ (pingsSince s u = [] ∨ pingsSince s u = [.ping]) := by
      intro u hu
      obtain ⟨more, hlog, hcalls⟩ := hu.log
      have hall : u.log = s.log ++ (new ++ more) := by
        rw [hlog, ← List.append_assoc]
        exact congrArg (· ++ more) hturned.log
      have hnone : (Log.calls more).filterMap Duty.pulse? = [] :=
        List.filterMap_eq_nil_iff.mpr fun d hd => pulse?_of_ne_ping (hcalls d hd)
      refine ⟨⟨_, hall⟩, .inr ?_⟩
      rw [pingsSince_of_log hall, Log.calls_append, hturned.calls, List.filterMap_append, hnone]
      rfl
    rw [bind_apply, attempt] at hrun
    rcases hr : party p.logged p.logged.backend.ping s with ⟨(e | q | _) | _, s₁⟩ <;>
      rw [hr] at hrun hpinged <;> dsimp only at hrun
    · split at hrun
      · have hrestore := (bypass_growth p).grows (follows_bind
          (Link.follows_restore (Link.bypass_covers p) rfl) fun _ => follows_pure ()) s₁
        rw [hrun] at hrestore
        exact hpinged hrestore.unpinged
      · cases hrun
        exact hpinged (.refl _)
    all_goals
      cases hrun
      exact hpinged (.refl _)

end Session
end DatabaseSession
