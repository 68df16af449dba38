import DatabaseSession.Proofs.Offbeat

namespace DatabaseSession

open Run Session

variable {ω : Type}

/-- Where a session's worker stands with its requests. -/
inductive Post where
  /-- It is between two requests, or has not been started. -/
  | resting
  /-- It has taken a request. -/
  | holding (request : Request)
  /-- It has allowed another keep-alive and is about to ping. -/
  | due
  /-- It is in a turn that never ends. -/
  | blocked
  /-- It was told to stop or it panicked, and has yet to wind up. -/
  | leaving (cause : Option Panic)
  /-- It is through, or did not get as far as its requests. -/
  | out

namespace Post

def inLoop : Post → Bool
  | .resting | .holding _ | .due | .blocked => true
  | .leaving _ | .out => false

def isBusy : Post → Bool
  | .holding _ | .due | .blocked => true
  | .resting | .leaving _ | .out => false

def holdsProbe : Post → Bool
  | .holding request => request.isProbe
  | _ => false

/-- After a request was handled, which tells whether the worker goes on. -/
def ofHandled : Except Stop Bool → Post
  | .ok true => .resting
  | .ok false => .leaving none
  | .error (.panic q) => .leaving (some q)
  | .error _ => .blocked

def ofCall : Except Stop Unit → Post
  | .error .hang => .out
  | _ => .resting

end Post

namespace Session

/-- One thing happens to a session with a worker, and these pulses are seen, the pings aside. The
heartbeat's claim and its sending are two things, and so are the worker's taking of a request, its
reset of the flag and its ping. Everybody else comes in between any two of them. -/
inductive Stroke (p : Parties ω) : Post → Bool → Session (Log × ω) → List Pulse →
    Post → Bool → Session (Log × ω) → Prop where
  | call {st : Post} {claimed : Bool} {s s' : Session (Log × ω)} {call : Call} {a : Answer}
      (h : answer p.logged .caller call s = (some a, s')) :
      Stroke p st claimed s [] st claimed (s'.note (.asked .caller call a))
  /-- A call that is not answered yet has been made all the same. -/
  | wait {st : Post} {claimed : Bool} {s s' : Session (Log × ω)} {call : Call}
      (h : answer p.logged .caller call s = (none, s')) : Stroke p st claimed s [] st claimed s'
  /-- A reconnect is sent by somebody who found the session open some time ago. -/
  | late {st : Post} {claimed : Bool} {s : Session (Log × ω)} (options : Option Options) :
      Stroke p st claimed s [] st claimed (s.requestReconnect options).2
  | elsewhere {st : Post} {claimed : Bool} {s : Session (Log × ω)} (w : ω) :
      Stroke p st claimed s [] st claimed { s with outside := (s.log, w) }
  | tick {st : Post} {s : Session (Log × ω)} (hprobing : s.mailbox.probing.isSome = true) :
      Stroke p st false s [.tick (Service.claimProbe s).1] st (Service.claimProbe s).1
        (Service.claimProbe s).2
  | send {st : Post} {s : Session (Log × ω)} :
      Stroke p st true s [.sent (s.sendRequest .probe).1] st false (Service.sendProbe s)
  | start {claimed : Bool} {s s' : Session (Log × ω)} {x : Except Stop Unit}
      (hlife : s.life = .idle) (hthreaded : s.settings.threaded = true)
      (h : Session.start p.logged s = (x, s')) :
      Stroke p .resting claimed s [] (.ofCall x) claimed s'
  | close {claimed : Bool} {s s' : Session (Log × ω)} {x : Except Stop Unit}
      (hlife : s.life = .idle) (h : Session.close p.logged s = (x, s')) :
      Stroke p .resting claimed s [] (.ofCall x) claimed s'
  | drop {claimed : Bool} {s s' : Session (Log × ω)} {x : Except Stop Unit}
      (hlife : s.life = .idle) (h : dropHandle p.logged s = (x, s')) :
      Stroke p .resting claimed s [] (.ofCall x) claimed s'
  | take {claimed : Bool} {s : Session (Log × ω)} {request : Request} {rest : List Request}
      (hattended : s.mailbox.receiving = true) (hqueue : s.mailbox.queue = request :: rest) :
      Stroke p .resting claimed s (if request.isProbe then [.taken] else []) (.holding request)
        claimed (Service.unqueued s rest)
  | reset {claimed : Bool} {s : Session (Log × ω)} :
      Stroke p (.holding .probe) claimed s [.reset] .due claimed (Service.clearProbe s)
  | ping {claimed : Bool} {s s' : Session (Log × ω)} {x : Except Stop Unit}
      (h : Link.checkAlive p.logged s = (x, s')) :
      Stroke p .due claimed s [] (.ofHandled (x.map fun _ => true)) claimed s'
  | handle {claimed : Bool} {s s' : Session (Log × ω)} {request : Request} {x : Except Stop Bool}
      (hother : request.isProbe = false) (h : Service.handle p.logged request s = (x, s')) :
      Stroke p (.holding request) claimed s [] (.ofHandled x) claimed s'
  | leave {claimed : Bool} {cause : Option Panic} {s s' : Session (Log × ω)} {x : Except Stop Unit}
      (h : Service.leave p.logged cause s = (x, s')) :
      Stroke p (.leaving cause) claimed s [] .out claimed s'

/-- A session comes to this state, with its worker standing there and its heartbeat about to send a
keep-alive or not, and all these pulses have been seen. -/
inductive Pulsates (p : Parties ω) (s₀ : Session (Log × ω)) :
    Post → Bool → Session (Log × ω) → List Pulse → Prop where
  | refl : Pulsates p s₀ .resting false s₀ []
  | stroke {st st' : Post} {claimed claimed' : Bool} {s s' : Session (Log × ω)}
      {pulses new : List Pulse} (h : Pulsates p s₀ st claimed s pulses)
      (hstroke : Stroke p st claimed s new st' claimed' s') :
      Pulsates p s₀ st' claimed' s' (pulses ++ new ++ pingsSince s s')

variable {p : Parties ω} {s s' : Session (Log × ω)}

/-- To take a request and handle it in one go is made of strokes. -/
theorem Pulsates.takes {s₀ : Session (Log × ω)} {claimed : Bool} {pulses : List Pulse}
    (h : Pulsates p s₀ .resting claimed s pulses) (hattended : s.mailbox.receiving = true)
    {request : Request} {rest : List Request} (hqueue : s.mailbox.queue = request :: rest)
    {x : Except Stop Bool}
    (hrun : Service.handle p.logged request (Service.unqueued s rest) = (x, s')) :
    ∃ more, Pulsates p s₀ (.ofHandled x) claimed s' (pulses ++ more) := by
  have htaken := h.stroke (.take hattended hqueue)
  rw [List.append_assoc] at htaken
  by_cases hprobe : request.isProbe = true
  · obtain ⟨rfl⟩ : request = .probe := by cases request <;> first | rfl | cases hprobe
    rcases halive : Link.checkAlive p.logged (Service.clearProbe (Service.unqueued s rest)) with
      ⟨y, s₁⟩
    have hhandle : Service.handle p.logged .probe (Service.unqueued s rest) =
        (y.map fun _ => true, s₁) := by
      change (Link.checkAlive p.logged >>= fun _ => pure true) (Service.clearProbe _) = _
      rw [bind_apply, halive]
      rcases y with _ | _ <;> rfl
    cases hhandle.symm.trans hrun
    have hpinged := (htaken.stroke .reset).stroke (.ping halive)
    rw [List.append_assoc, List.append_assoc, List.append_assoc, List.append_assoc] at hpinged
    exact ⟨_, hpinged⟩
  · have hhandled := htaken.stroke (.handle (by simpa using hprobe) hrun)
    rw [List.append_assoc, List.append_assoc] at hhandled
    exact ⟨_, hhandled⟩

theorem Pulsates.ticks {s₀ : Session (Log × ω)} {st : Post} {pulses : List Pulse}
    (h : Pulsates p s₀ st false s pulses) :
    ∃ more, Pulsates p s₀ st false (Service.tick s) (pulses ++ more) := by
  unfold Service.tick
  split
  · next hprobing =>
    have htick := h.stroke (.tick hprobing)
    rw [List.append_assoc] at htick
    rcases hc : Service.claimProbe s with ⟨_ | _, s₁⟩ <;> rw [hc] at htick
    · exact ⟨_, htick⟩
    · have hsend := htick.stroke .send
      rw [List.append_assoc, List.append_assoc] at hsend
      exact ⟨_, hsend⟩
  · exact ⟨[], by rwa [List.append_nil]⟩

/-- The keep-alives of a session are where the rhythm tells. -/
structure Keeps (r : Rhythm) (st : Post) (claimed : Bool) (s : Session (Log × ω)) : Prop where
  claimed : claimed = true ↔ r.place = .claimed
  queued : s.probes = if r.place = .queued then 1 else 0
  held : st.holdsProbe = true ↔ r.place = .held
  pending : s.mailbox.probePending = true ↔ r.place ≠ .nowhere
  due : st = .due → r.due = true

/-- What is known of a session after these pulses. -/
structure Timed (st : Post) (claimed : Bool) (s : Session (Log × ω)) (pulses : List Pulse) :
    Prop where
  runs : st.inLoop = true → s.life = .idle ∨ s.mailbox.receiving = true →
    ∃ r, Rhythm.after {} pulses = some r ∧ Keeps r st claimed s
  idle : s.life = .idle →
    s.mailbox.receiving = false ∧ s.mailbox.probing = none ∧ st = .resting ∧ claimed = false
  busy : st.isBusy = true → s.mailbox.receiving = true
  /-- Once the worker is out of its loop, only the heartbeat goes on for a while. -/
  fades : ∃ run rest r, pulses = run ++ rest ∧ Rhythm.after {} run = some r ∧
    ∀ x ∈ rest, x.isBeat = true
  told : pulses.filter Pulse.isPing = (Log.calls s.log).filterMap Duty.pulse?

variable {r : Rhythm} {st st' : Post} {claimed claimed' : Bool} {pulses : List Pulse}

theorem Keeps.offbeat (h : Keeps r st claimed s) (ho : Offbeat s s') : Keeps r st claimed s' :=
  { h with
    queued := ho.probes.trans h.queued
    pending := by rw [ho.probePending]; exact h.pending }

theorem told_append (h : pulses.filter Pulse.isPing = (Log.calls s.log).filterMap Duty.pulse?)
    (new : List Pulse) (hnew : new.filter Pulse.isPing = [])
    (hlog : ∃ more, s'.log = s.log ++ more) :
    (pulses ++ new ++ pingsSince s s').filter Pulse.isPing =
      (Log.calls s'.log).filterMap Duty.pulse? := by
  obtain ⟨more, hlog⟩ := hlog
  have hpings : (pingsSince s s').filter Pulse.isPing = pingsSince s s' := by
    refine List.filter_eq_self.mpr fun x hx => ?_
    obtain ⟨d, -, hd⟩ := List.mem_filterMap.mp hx
    cases d <;> cases hd
    rfl
  rw [List.filter_append, List.filter_append, hnew, hpings, h, pingsSince_of_log hlog, hlog,
    Log.calls_append, List.filterMap_append, List.append_nil]

theorem told_unpinged (h : pulses.filter Pulse.isPing = (Log.calls s.log).filterMap Duty.pulse?)
    (hu : Unpinged s s') :
    pulses.filter Pulse.isPing = (Log.calls s'.log).filterMap Duty.pulse? := by
  obtain ⟨more, hlog, -⟩ := hu.log
  have htold := told_append h [] rfl ⟨more, hlog⟩
  rwa [hu.pingsSince, List.append_nil, List.append_nil] at htold

namespace Timed

theorem ofKeeps (hr : Rhythm.after {} pulses = some r) (hkeeps : Keeps r st claimed s)
    (hattended : s.mailbox.receiving = true) (hbegun : s.life ≠ .idle)
    (htold : pulses.filter Pulse.isPing = (Log.calls s.log).filterMap Duty.pulse?) :
    Timed st claimed s pulses where
  runs _ _ := ⟨r, hr, hkeeps⟩
  idle hl := absurd hl hbegun
  busy _ := hattended
  fades := ⟨pulses, [], r, by simp, hr, by simp⟩
  told := htold

theorem begun (h : Timed st claimed s pulses) (hattended : s.mailbox.receiving = true) :
    s.life ≠ .idle := by
  intro hl
  exact absurd (hattended.symm.trans (h.idle hl).1) (by simp)

theorem bypasses (h : Timed st claimed s pulses) (hb : Bypasses s s') :
    Timed st claimed s' pulses where
  runs hloop hrun := by
    have ho := hb.offbeat
    obtain ⟨r, hr, hkeeps⟩ := h.runs hloop (hrun.imp ho.begun ho.receiving.symm.trans)
    exact ⟨r, hr, hkeeps.offbeat ho⟩
  idle hl := by
    obtain ⟨hrecv, hprobing, hst⟩ := h.idle (hb.offbeat.begun hl)
    exact ⟨hb.offbeat.receiving.trans hrecv, hb.offbeat.probing.trans hprobing, hst⟩
  busy hst := hb.offbeat.receiving.trans (h.busy hst)
  fades := h.fades
  told := told_unpinged h.told hb.unpinged

theorem moves (h : Timed st claimed s pulses) (hloop : st'.inLoop = true →
      st.inLoop = true ∧ st'.holdsProbe = st.holdsProbe ∧ st' ≠ .due)
    (hbusy : st'.isBusy = true → st.isBusy = true) (hidle : s.life = .idle → st' = .resting) :
    Timed st' claimed s pulses where
  runs hst hrun := by
    obtain ⟨hin, hholds, hdue⟩ := hloop hst
    obtain ⟨r, hr, hkeeps⟩ := h.runs hin hrun
    exact ⟨r, hr, { hkeeps with
      held := by rw [hholds]; exact hkeeps.held
      due := fun hst' => absurd hst' hdue }⟩
  idle hl := ⟨(h.idle hl).1, (h.idle hl).2.1, hidle hl, (h.idle hl).2.2.2⟩
  busy hst := h.busy (hbusy hst)
  fades := h.fades
  told := h.told

theorem beats (h : Timed st claimed s pulses) {x : Pulse} (hx : x.isBeat = true)
    (hbegun : s'.life ≠ .idle) (hattended : s'.mailbox.receiving = s.mailbox.receiving)
    (hlog : s'.log = s.log) (hruns : s.mailbox.receiving = true → ∀ r, Keeps r st claimed s →
      ∃ r', r.next x = some r' ∧ Keeps r' st claimed' s') :
    Timed st claimed' s' (pulses ++ [x]) where
  runs hloop hrun := by
    have hrecv := hattended.symm.trans (hrun.resolve_left hbegun)
    obtain ⟨r, hr, hkeeps⟩ := h.runs hloop (.inr hrecv)
    obtain ⟨r', hnext, hkeeps'⟩ := hruns hrecv r hkeeps
    exact ⟨r', (Rhythm.after_snoc hr x).trans hnext, hkeeps'⟩
  idle hl := absurd hl hbegun
  busy hst := hattended.trans (h.busy hst)
  fades := by
    obtain ⟨run, rest, r, rfl, hr, hrest⟩ := h.fades
    refine ⟨run, rest ++ [x], r, by simp, hr, fun y hy => ?_⟩
    rcases List.mem_append.mp hy with hy | hy
    · exact hrest y hy
    · rwa [List.mem_singleton.mp hy]
  told := by
    have hnone : [x].filter Pulse.isPing = [] := by
      cases x <;> first | rfl | cases hx
    rw [List.filter_append, hnone, hlog, List.append_nil]
    exact h.told

theorem tick (h : Timed st false s pulses) (hprobing : s.mailbox.probing.isSome = true) :
    Timed st (Service.claimProbe s).1 (Service.claimProbe s).2
      (pulses ++ [.tick (Service.claimProbe s).1]) := by
  have hbegun : s.life ≠ .idle := by
    intro hl
    rw [(h.idle hl).2.1] at hprobing
    cases hprobing
  refine h.beats rfl hbegun rfl rfl fun hrecv r hkeeps => ?_
  cases hp : s.mailbox.probePending with
  | false =>
    have hnowhere : r.place = .nowhere := by simpa [hp] using hkeeps.pending
    have hheld : st.holdsProbe = false := by simpa [hnowhere] using hkeeps.held
    have hqueued : s.probes = 0 := by simpa [hnowhere] using hkeeps.queued
    have hclaim : Service.claimProbe s =
        (true, { s with mailbox := { s.mailbox with probePending := true } }) := by
      simp [Service.claimProbe, hp]
    rw [hclaim]
    exact ⟨_, Rhythm.next_tick_true.mpr ⟨hnowhere, rfl⟩, by simp, hqueued, by simp [hheld], by simp,
      hkeeps.due⟩
  | true =>
    have hclaim : Service.claimProbe s = (false, s) := by
      rcases s with ⟨_, _, _, _, _, _, _, _, _, _, _, _, _, ⟨⟩⟩
      simp_all [Service.claimProbe]
    rw [hclaim]
    exact ⟨r, Rhythm.next_tick_false.mpr ⟨hkeeps.pending.mp hp, rfl⟩, hkeeps⟩

theorem send (h : Timed st true s pulses) :
    Timed st false (Service.sendProbe s) (pulses ++ [.sent (s.sendRequest .probe).1]) := by
  have hbegun : s.life ≠ .idle := by
    intro hl
    exact absurd (h.idle hl).2.2.2 (by simp)
  cases hrecv : s.mailbox.receiving with
  | false =>
    have hsend : s.sendRequest .probe = (false, s) := by simp [sendRequest, hrecv]
    rw [Service.sendProbe, hsend]
    exact h.beats rfl hbegun rfl rfl fun hr => absurd (hrecv.symm.trans hr) (by simp)
  | true =>
    have hsend : s.sendRequest .probe = (true, { s with mailbox := s.mailbox.push .probe }) := by
      simp [sendRequest, hrecv]
    rw [Service.sendProbe, hsend]
    refine h.beats rfl hbegun rfl rfl fun _ r hkeeps => ?_
    have hclaimed : r.place = .claimed := hkeeps.claimed.mp rfl
    have hheld : st.holdsProbe = false := by simpa [hclaimed] using hkeeps.held
    have hqueued : s.probes = 0 := by simpa [hclaimed] using hkeeps.queued
    have hpending : s.mailbox.probePending = true := hkeeps.pending.mpr (by simp [hclaimed])
    refine ⟨_, Rhythm.next_sent_true.mpr ⟨hclaimed, rfl⟩, by simp, ?_, by simp [hheld],
      by simpa [Mailbox.push] using hpending, hkeeps.due⟩
    have hpush : Session.probes { s with mailbox := s.mailbox.push .probe } = s.probes + 1 := by
      simp [probes, Mailbox.push, Request.isProbe]
    rw [hpush, hqueued]
    rfl

theorem keeps (h : Timed st claimed s pulses) (hloop : st.inLoop = true)
    (hattended : s.mailbox.receiving = true) :
    ∃ r, Rhythm.after {} pulses = some r ∧ Keeps r st claimed s :=
  h.runs hloop (.inr hattended)

theorem take (h : Timed .resting claimed s pulses) {request : Request} {rest : List Request}
    (hattended : s.mailbox.receiving = true) (hqueue : s.mailbox.queue = request :: rest) :
    Timed (.holding request) claimed (Service.unqueued s rest)
      (pulses ++ if request.isProbe then [.taken] else []) := by
  obtain ⟨r, hr, hkeeps⟩ := h.keeps rfl hattended
  have hcount : s.probes = (Service.unqueued s rest).probes + if request.isProbe then 1 else 0 := by
    simp [probes, hqueue, Service.unqueued, List.countP_cons]
  have hfree : r.place ≠ .held := fun hheld =>
    absurd (hkeeps.held.mpr hheld) (by simp [Post.holdsProbe])
  cases hprobe : request.isProbe with
  | false =>
    rw [hprobe] at hcount
    have hkeeps' : Keeps r (.holding request) claimed (Service.unqueued s rest) :=
      ⟨hkeeps.claimed, hcount.symm.trans hkeeps.queued, by simp [Post.holdsProbe, hprobe, hfree],
        hkeeps.pending, by simp⟩
    simpa using ofKeeps hr hkeeps' hattended (h.begun hattended) h.told
  | true =>
    rw [hprobe] at hcount
    have hqueued : r.place = .queued := by
      by_contra hne
      have hnone := hkeeps.queued
      rw [if_neg hne, hcount] at hnone
      simp at hnone
    have hnone : (Service.unqueued s rest).probes = 0 := by
      have hone := hkeeps.queued
      rw [if_pos hqueued, hcount] at hone
      simpa using hone
    refine ofKeeps ((Rhythm.after_snoc hr .taken).trans (Rhythm.next_taken.mpr ⟨hqueued, rfl⟩))
      ⟨?_, hnone, by simp [Post.holdsProbe, hprobe], ?_, by simp⟩ hattended (h.begun hattended) ?_
    · simpa [hqueued] using hkeeps.claimed
    · exact ⟨fun _ => by simp, fun _ => hkeeps.pending.mpr (by simp [hqueued])⟩
    · rw [List.filter_append]
      exact (List.append_nil _).trans h.told

theorem reset (h : Timed (.holding .probe) claimed s pulses) :
    Timed .due claimed (Service.clearProbe s) (pulses ++ [.reset]) := by
  have hattended := h.busy rfl
  obtain ⟨r, hr, hkeeps⟩ := h.keeps rfl hattended
  have hheld : r.place = .held := hkeeps.held.mp rfl
  refine ofKeeps ((Rhythm.after_snoc hr .reset).trans (Rhythm.next_reset.mpr ⟨hheld, rfl⟩))
    ⟨?_, ?_, by simp [Post.holdsProbe], by simp [Service.clearProbe], by simp⟩ hattended
    (h.begun hattended) ?_
  · simpa [hheld] using hkeeps.claimed
  · exact hkeeps.queued.trans (by simp [hheld])
  · rw [List.filter_append]
    exact (List.append_nil _).trans h.told

theorem ping (h : Timed .due claimed s pulses) {x : Except Stop Unit}
    (hrun : Link.checkAlive p.logged s = (x, s')) :
    Timed (.ofHandled (x.map fun _ => true)) claimed s' (pulses ++ [] ++ pingsSince s s') := by
  have hattended := h.busy rfl
  obtain ⟨r, hr, hkeeps⟩ := h.keeps rfl hattended
  obtain ⟨hlog, hpings⟩ := checkAlive_pings hrun
  have hgrowth := offbeat_growth p fun _ => True
  have ho := hgrowth.grows (Link.grows_checkAlive hgrowth trivial fun _ _ => trivial) s
  rw [hrun] at ho
  have hpost : Post.holdsProbe (.ofHandled (x.map fun _ => true)) = false ∧
      Post.ofHandled (x.map fun _ => true) ≠ .due := by
    rcases x with (_ | _ | _) | _ <;> simp [Post.ofHandled, Post.holdsProbe, Except.map]
  have hnext : ∃ r', Rhythm.after {} (pulses ++ [] ++ pingsSince s s') = some r' ∧
      r'.place = r.place := by
    rcases hpings with hnone | hone
    · exact ⟨r, by simpa [hnone] using hr, rfl⟩
    · refine ⟨{ r with due := false }, ?_, rfl⟩
      rw [hone, List.append_nil, Rhythm.after_snoc hr]
      exact Rhythm.next_ping.mpr ⟨hkeeps.due rfl, rfl⟩
  obtain ⟨r', hr', hplace⟩ := hnext
  have hkeeps' := hkeeps.offbeat ho
  refine ofKeeps hr' ⟨?_, ?_, ?_, ?_, fun hst => absurd hst hpost.2⟩
    (ho.receiving.trans hattended) (fun hidle => h.begun hattended (ho.begun hidle))
    (told_append h.told [] rfl hlog)
  · rw [hplace]
    exact hkeeps'.claimed
  · rw [hplace]
    exact hkeeps'.queued
  · rw [hplace, hpost.1]
    exact hkeeps'.held
  · rw [hplace]
    exact hkeeps'.pending

theorem calls (h : Timed .resting claimed s pulses) (hb : Bypasses s s') {x : Except Stop Unit}
    (hidle : s'.life = .idle → x = .ok ()) : Timed (.ofCall x) claimed s' pulses := by
  refine (h.bypasses hb).moves (fun _ => ?_) ?_ fun hl => ?_
  · rcases x with (_ | _ | _) | _ <;> simp_all [Post.ofCall, Post.inLoop, Post.holdsProbe]
  · rcases x with (_ | _ | _) | _ <;> simp [Post.ofCall, Post.isBusy]
  · rw [hidle hl]
    rfl

theorem start (h : Timed .resting claimed s pulses) (hlife : s.life = .idle)
    (hthreaded : s.settings.threaded = true) {x : Except Stop Unit}
    (hrun : Session.start p.logged s = (x, s')) : Timed (.ofCall x) claimed s' pulses := by
  obtain ⟨hunpinged, hbegun, hattended⟩ := start_offbeat hlife hthreaded hrun
  refine ⟨fun hloop hrecv => ?_, fun hl => absurd hl hbegun, fun hbusy => ?_, h.fades,
    told_unpinged h.told hunpinged⟩
  · obtain ⟨r, hr, hkeeps⟩ := h.runs rfl (.inl hlife)
    have hst : Post.ofCall x = .resting ∧ x ≠ .error .hang := by
      rcases x with (_ | _ | _) | _ <;> simp_all [Post.ofCall, Post.inLoop]
    obtain ⟨hpending, hprobes⟩ := hattended hst.2 (hrecv.resolve_left hbegun)
    rw [hst.1]
    exact ⟨r, hr, { hkeeps with
      queued := hprobes.trans hkeeps.queued
      pending := by rw [hpending]; exact hkeeps.pending }⟩
  · rcases x with (_ | _ | _) | _ <;> cases hbusy

theorem handle {request : Request} (h : Timed (.holding request) claimed s pulses)
    (hother : request.isProbe = false) {x : Except Stop Bool}
    (hrun : Service.handle p.logged request s = (x, s')) :
    Timed (.ofHandled x) claimed s' pulses ∧ Unpinged s s' := by
  have hb := (bypass_growth p).grows (Service.bypass_handle p hother) s
  rw [hrun] at hb
  have hnext := h.bypasses hb
  refine ⟨hnext.moves (fun _ => ?_) (fun _ => rfl) fun hl => ?_, hb.unpinged⟩
  · rcases x with (_ | _ | _) | (_ | _) <;>
      simp_all [Post.ofHandled, Post.inLoop, Post.holdsProbe]
  · exact absurd hl (hnext.begun (hnext.busy rfl))

theorem leave {cause : Option Panic} (h : Timed (.leaving cause) claimed s pulses)
    (hu : Unpinged s s') : Timed .out claimed s' pulses where
  runs := by simp [Post.inLoop]
  idle hl := absurd (h.idle (hu.begun hl)).2.2.1 (by simp)
  busy := by simp [Post.isBusy]
  fades := h.fades
  told := told_unpinged h.told hu

theorem stroke (h : Timed st claimed s pulses) {new : List Pulse}
    (hstroke : Stroke p st claimed s new st' claimed' s') :
    Timed st' claimed' s' (pulses ++ new ++ pingsSince s s') := by
  -- but for the ping itself, there is none
  have hquiet {u : Session (Log × ω)} {st₁ : Post} {b : Bool} {more : List Pulse}
      (ht : Timed st₁ b u (pulses ++ more)) (hu : Unpinged s u) :
      Timed st₁ b u (pulses ++ more ++ pingsSince s u) := by
    rwa [hu.pingsSince, List.append_nil]
  have hsilent {u : Session (Log × ω)} {st₁ : Post} {b : Bool} (ht : Timed st₁ b u pulses)
      (hu : Unpinged s u) : Timed st₁ b u (pulses ++ [] ++ pingsSince s u) :=
    hquiet (by rwa [List.append_nil]) hu
  cases hstroke with
  | call ha =>
    have hb := (bypass_growth p).asked ha
    exact hsilent (h.bypasses hb) hb.unpinged
  | wait ha =>
    have hb := (bypass_growth p).unanswered ha
    exact hsilent (h.bypasses hb) hb.unpinged
  | late options =>
    have hb : Bypasses s (s.requestReconnect options).2 :=
      ⟨requestReconnect_offbeat s options,
        .ofInterlude (.ofFiled (requestReconnect_filed s options))⟩
    exact hsilent (h.bypasses hb) hb.unpinged
  | elsewhere w =>
    have hb := (bypass_growth p).elsewhere s w
    exact hsilent (h.bypasses hb) hb.unpinged
  | tick hprobing => exact hquiet (h.tick hprobing) (.of_eq rfl rfl)
  | send =>
    refine hquiet h.send ?_
    have hfiled := sendRequest_filed s .probe
    unfold Service.sendProbe
    rcases hr : s.sendRequest .probe with ⟨_ | _, s₁⟩ <;> rw [hr] at hfiled
    · exact (Unpinged.ofInterlude (.ofFiled hfiled)).trans (.of_eq rfl rfl)
    · exact .ofInterlude (.ofFiled hfiled)
  | start hlife hthreaded hrun =>
    exact hsilent (h.start hlife hthreaded hrun) (start_offbeat hlife hthreaded hrun).1
  | close hlife hrun =>
    obtain ⟨hb, hidle⟩ := close_bypasses hlife hrun
    exact hsilent (h.calls hb hidle) hb.unpinged
  | drop hlife hrun =>
    obtain ⟨hb, hidle⟩ := dropHandle_bypasses hrun
    exact hsilent (h.calls hb hidle) hb.unpinged
  | take hattended hqueue => exact hquiet (h.take hattended hqueue) (.of_eq rfl rfl)
  | reset => exact hquiet h.reset (.of_eq rfl rfl)
  | ping hrun => exact h.ping hrun
  | handle hother hrun =>
    obtain ⟨ht, hu⟩ := h.handle hother hrun
    exact hsilent ht hu
  | @leave _ cause _ _ _ hrun =>
    have hu := (unpinged_growth p).grows ((unpinged_tends p).follows_leave cause) s
    rw [hrun] at hu
    exact hsilent (h.leave hu) hu

end Timed

/-- Whatever happens to a session, and in whatever order, its keep-alives stay in time. -/
theorem Pulsates.timed {id name : String} {options : Options} {settings : Settings} {w : ω}
    (h : Pulsates p (create id name options settings (([] : Log), w)) st claimed s pulses) :
    Timed st claimed s pulses := by
  induction h with
  | refl =>
    have hkeeps : Keeps {} .resting false (create id name options settings (([] : Log), w)) :=
      ⟨by simp, rfl, by simp [Post.holdsProbe], by simp [create], by simp⟩
    exact ⟨fun _ _ => ⟨{}, rfl, hkeeps⟩, fun _ => ⟨rfl, rfl, rfl, rfl⟩, by simp [Post.isBusy],
      ⟨[], [], {}, rfl, rfl, by simp⟩, rfl⟩
  | stroke _ hstroke ih => exact ih.stroke hstroke

theorem Keeps.probes_le_one (h : Keeps r st claimed s) : s.probes ≤ 1 := by
  rw [h.queued]
  split <;> simp

theorem probe_mem_iff : .probe ∈ s.mailbox.queue ↔ s.probes ≠ 0 := by
  rw [probes, Nat.ne_zero_iff_zero_lt, List.countP_pos_iff]
  constructor
  · exact fun h => ⟨.probe, h, rfl⟩
  · rintro ⟨request, hmem, hprobe⟩
    cases request <;> first | exact hmem | cases hprobe

theorem Post.holdsProbe_iff : st.holdsProbe = true ↔ st = .holding .probe := by
  rcases st with _ | (_ | _ | _ | _) | _ | _ | _ | _ <;> simp [Post.holdsProbe, Request.isProbe]

/-- The flag is up while a keep-alive is about to be sent, is queued, or has been taken and not been
reset. -/
theorem Keeps.pending_iff (h : Keeps r st claimed s) : s.mailbox.probePending = true ↔
    claimed = true ∨ .probe ∈ s.mailbox.queue ∨ st = .holding .probe := by
  rw [h.pending, h.claimed, probe_mem_iff, h.queued, ← Post.holdsProbe_iff, h.held]
  rcases r with ⟨_ | _ | _ | _, due⟩ <;> simp

theorem Keeps.sendProbe_queue (h : Keeps r st claimed s) (hattended : s.mailbox.receiving = true)
    (hplace : r.place = .claimed) : claimed = true ∧
      (Service.sendProbe s).mailbox.queue = s.mailbox.queue ++ [.probe] := by
  refine ⟨h.claimed.mpr hplace, ?_⟩
  simp [Service.sendProbe, sendRequest, hattended, Mailbox.push]

theorem Timed.causes (h : Timed st claimed s pulses) {before later : List Pulse}
    (hpulses : pulses = before ++ .ping :: later) : Pulse.Causes before := by
  obtain ⟨run, rest, r, rfl, hr, hrest⟩ := h.fades
  have hnot : .ping ∉ rest := fun hmem => by simpa [Pulse.isBeat] using hrest _ hmem
  rcases List.append_eq_append_iff.mp hpulses with ⟨more, -, rfl⟩ | ⟨more, rfl, hmore⟩
  · exact absurd (by simp) hnot
  · cases more with
    | nil => exact absurd (by rw [← List.nil_append rest, ← hmore]; simp) hnot
    | cons x more =>
      obtain ⟨rfl, -⟩ := List.cons.inj hmore
      exact Rhythm.causes_of_ping hr

/-- At most one keep-alive is queued, whatever the order in which the heartbeat's claims and sends,
the callers' requests and the worker's moves come. The flag is up as long as one is under way, the
first tick after its reset queues another one, and every ping has a tick of its own, which came
after the keep-alive before it had been taken. -/
theorem keepalives_coalesce {id name : String} {options : Options} {settings : Settings} {w : ω}
    (h : Pulsates p (create id name options settings (([] : Log), w)) st claimed s pulses) :
    (st.inLoop = true → s.mailbox.receiving = true →
      s.probes ≤ 1 ∧
      (s.mailbox.probePending = true ↔
        claimed = true ∨ .probe ∈ s.mailbox.queue ∨ st = .holding .probe) ∧
      ∀ before between later won, pulses = before ++ .reset :: (between ++ .tick won :: later) →
        (∀ b, .tick b ∉ between) → won = true ∧ (Pulse.Queues later ∨
          claimed = true ∧ (Service.sendProbe s).mailbox.queue = s.mailbox.queue ++ [.probe])) ∧
    (∀ before later, pulses = before ++ .ping :: later → Pulse.Causes before) ∧
    pulses.filter Pulse.isPing = (Log.calls s.log).filterMap Duty.pulse? := by
  have htimed := h.timed
  refine ⟨fun hloop hattended => ?_, fun _ _ hpulses => htimed.causes hpulses, htimed.told⟩
  obtain ⟨r, hr, hkeeps⟩ := htimed.keeps hloop hattended
  refine ⟨hkeeps.probes_le_one, hkeeps.pending_iff, ?_⟩
  rintro before between later won rfl hticks
  obtain ⟨hwon, hqueues⟩ := Rhythm.queues_of_tick hr hticks
  exact ⟨hwon, hqueues.imp_right (hkeeps.sendProbe_queue hattended)⟩

theorem Pulsates.sees {s₀ : Session (Log × ω)} (h : Pulsates p s₀ st claimed s pulses)
    {new all : List Pulse} {st₁ : Post} {b : Bool} (hstroke : Stroke p st claimed s new st₁ b s')
    (hst : st₁ = st') (hclaimed : b = claimed') (hall : pulses ++ new ++ pingsSince s s' = all) :
    Pulsates p s₀ st' claimed' s' all := by
  subst hst hclaimed hall
  exact h.stroke hstroke

namespace Twice

open Rehearsal

def cast : Cast := {}

def created : Session (Log × Scene) :=
  .create "s1" "Mock" { pingInterval := some (.ofInt 1) } {} ([], cast.scene {} [])

def started : Session (Log × Scene) := (start cast.parties.logged created).2

def queued : Session (Log × Scene) := Service.sendProbe (Service.claimProbe started).2

/-- The next tick came too early, and the keep-alive is taken. -/
def taken : Session (Log × Scene) := Service.unqueued (Service.claimProbe queued).2 []

/-- The second one is claimed after the reset of the flag and before the ping. -/
def reclaimed : Session (Log × Scene) := (Service.claimProbe (Service.clearProbe taken)).2

def pinged : Session (Log × Scene) := (Link.checkAlive cast.parties.logged reclaimed).2

def retaken : Session (Log × Scene) := Service.unqueued (Service.sendProbe pinged) []

def repinged : Session (Log × Scene) :=
  (Link.checkAlive cast.parties.logged (Service.clearProbe retaken)).2

def seen : List Pulse :=
  [.tick true, .sent true, .tick false, .taken, .reset, .tick true, .ping, .sent true, .taken,
    .reset]

theorem keepalives_coalesce_twice :
    Pulsates cast.parties created .resting false repinged (seen ++ [.ping]) ∧ repinged.probes ≤ 1 ∧
      repinged.mailbox.probePending = false ∧ Pulse.Causes seen ∧
      (Log.calls repinged.log).filterMap Duty.pulse? = [.ping, .ping] := by
  have hx : (start cast.parties.logged created).1 = .ok () := by decide +kernel
  have hstarted : Pulsates cast.parties created .resting false started [] :=
    Pulsates.refl.sees (.start rfl rfl rfl) (congrArg Post.ofCall hx) rfl (by decide +kernel)
  have hclaimed : Pulsates cast.parties created .resting true (Service.claimProbe started).2
      (seen.take 1) :=
    hstarted.sees (.tick (by decide +kernel)) rfl (by decide +kernel) (by decide +kernel)
  have hqueued : Pulsates cast.parties created .resting false queued (seen.take 2) :=
    hclaimed.sees .send rfl rfl (by decide +kernel)
  have hearly : Pulsates cast.parties created .resting false (Service.claimProbe queued).2
      (seen.take 3) :=
    hqueued.sees (.tick (by decide +kernel)) rfl (by decide +kernel) (by decide +kernel)
  have htaken : Pulsates cast.parties created (.holding .probe) false taken (seen.take 4) :=
    hearly.sees (.take (by decide +kernel) rfl) rfl rfl (by decide +kernel)
  have hreset : Pulsates cast.parties created .due false (Service.clearProbe taken)
      (seen.take 5) :=
    htaken.sees .reset rfl rfl (by decide +kernel)
  -- the flag is free again before the ping, so a second probe may queue up behind it
  have hreclaimed : Pulsates cast.parties created .due true reclaimed (seen.take 6) :=
    hreset.sees (.tick (by decide +kernel)) rfl (by decide +kernel) (by decide +kernel)
  have hpinged : Pulsates cast.parties created .resting true pinged (seen.take 7) :=
    hreclaimed.sees (.ping rfl) rfl rfl (by decide +kernel)
  have hrequeued : Pulsates cast.parties created .resting false (Service.sendProbe pinged)
      (seen.take 8) :=
    hpinged.sees .send rfl rfl (by decide +kernel)
  have hretaken : Pulsates cast.parties created (.holding .probe) false retaken (seen.take 9) :=
    hrequeued.sees (.take (by decide +kernel) rfl) rfl rfl (by decide +kernel)
  have hagain : Pulsates cast.parties created .due false (Service.clearProbe retaken) seen :=
    hretaken.sees .reset rfl rfl (by decide +kernel)
  have hrepinged : Pulsates cast.parties created .resting false repinged (seen ++ [.ping]) :=
    hagain.sees (.ping rfl) rfl rfl (by decide +kernel)
  obtain ⟨hruns, hcauses, htold⟩ := keepalives_coalesce hrepinged
  obtain ⟨hone, -, -⟩ := hruns rfl (by decide +kernel)
  exact ⟨hrepinged, hone, by decide +kernel, hcauses seen [] rfl, htold.symm.trans (by decide)⟩

end Twice
end Session
end DatabaseSession
