import DatabaseSession.Session.Calls
import DatabaseSession.Proofs.Delivery

namespace DatabaseSession

namespace Duty

/-- What the backend is asked about a fresh connection. -/
def isPublishing : Duty → Bool
  | .info | .defaultSchema | .interrupter => true
  | _ => false

def isErrand : Duty → Bool
  | .errand _ | .cancelErrand _ | .failErrand _ _ | .reportErrand _ => true
  | _ => false

/-- What is done for a task while it is run. -/
def isTaskwork (d : Duty) : Bool :=
  d.isConnecting Attempt.isAutomatic || d.isReading || d.isSchema || d.isErrand

end Duty

namespace Session

variable {ω : Type}

/-- A change in which the log, the queue, the heartbeat, the registry, the life cycle, the settings
of the connection for life and the courier of the active task have no part. -/
structure Unmoved (s s' : Session ω) : Prop where
  outside : s'.outside = s.outside := by rfl
  queue : s'.mailbox.queue = s.mailbox.queue := by rfl
  receiving : s'.mailbox.receiving = s.mailbox.receiving := by rfl
  probePending : s'.mailbox.probePending = s.mailbox.probePending := by rfl
  probing : s'.mailbox.probing = s.mailbox.probing := by rfl
  registry : s'.registry = s.registry := by rfl
  life : s'.life = s.life := by rfl
  terminated : s'.terminated = s.terminated := by rfl
  released : s'.link.released = s.link.released := by rfl
  autoReconnect : s'.link.options.autoReconnect = s.link.options.autoReconnect := by rfl
  work : s'.active.work = s.active.work := by rfl
  courier : s'.active.courier = s.active.courier := by rfl

/-- A relation that holds between a session and what it becomes, whatever the parties do that are
called on for duties of this kind, and whoever uses the session meanwhile. -/
structure Growth (p : Parties ω) (P : Duty → Prop)
    (G : Session (Log × ω) → Session (Log × ω) → Prop) : Prop where
  trans : ∀ {a b c}, G a b → G b c → G a c
  unmoved : ∀ {s s'}, Unmoved s s' → G s s'
  elsewhere : ∀ s w, G s { s with outside := (s.log, w) }
  called : ∀ s {d}, P d → G s (s.note (.called d))
  returned : ∀ s d x, G s (s.note (.returned d x))
  asked : ∀ {thread call a s s'}, answer p.logged thread call s = (some a, s') →
    G s (s'.note (.asked thread call a))
  unanswered : ∀ {thread call s s'}, answer p.logged thread call s = (none, s') → G s s'

/-- Sending an event of the active task keeps the relation. -/
def Emits (p : Parties ω) (G : Session (Log × ω) → Session (Log × ω) → Prop) : Prop :=
  ∀ state message data error s, G s (Task.emit p.logged state message data error s).2

namespace Growth

open Run

variable {α : Type} {p : Parties ω} {P : Duty → Prop}
variable {G : Session (Log × ω) → Session (Log × ω) → Prop}

theorem refl (h : Growth p P G) (s : Session (Log × ω)) : G s s := h.unmoved {}

def course (h : Growth p P G) : Course (Log × ω) := .ofGrowth G h.refl h.trans

theorem follows (h : Growth p P G) {m : Run (Log × ω) α} (hm : ∀ s, G s (m s).2) :
    Follows h.course m := fun s => Course.allows_of_panics (hm s) (hm s)

theorem grows (h : Growth p P G) {m : Run (Log × ω) α} (hm : Follows h.course m)
    (s : Session (Log × ω)) : G s (m s).2 := (hm s).grown

theorem follows_unmoved (h : Growth p P G) {f : Session (Log × ω) → Session (Log × ω)}
    (hf : ∀ s, Unmoved s (f s)) : Follows h.course (modify f : Run (Log × ω) Unit) :=
  follows_modify fun s => h.unmoved (hf s)

theorem play (h : Growth p P G) (d : Duty) (t : Turn ω α) (s : Session (Log × ω)) :
    G s (Run.play p.logged (t.logged d s.log) s).2 := by
  -- what a turn asks next may depend on every answer it got, so the induction is on the turn
  induction t generalizing s with
  | done x w => exact h.trans (h.elsewhere s w) (h.returned _ d _)
  | ask thread call w next ih =>
    have hout := h.elsewhere s w
    simp only [Turn.logged, Run.play]
    rcases ha : answer p.logged thread call { s with outside := (s.log, w) } with ⟨_ | a, s₁⟩
    · exact h.trans hout (h.unanswered ha)
    · have hrest := ih a s₁.outside.2 (s₁.note (.asked thread call a))
      rw [log_note, note, play_outside] at hrest
      exact h.trans (h.trans hout (h.asked ha)) hrest

theorem permits (h : Growth p P G) {d : Duty} (hd : P d) : h.course.Permits p d := by
  intro α m
  refine h.follows fun s => ?_
  have hplay := h.play d (m s.outside.2) (s.note (.called d))
  rw [log_note, note, play_outside] at hplay
  exact h.trans (h.called s hd) hplay

theorem hand (h : Growth p P G) {sink : Sink} {event : Event} (hd : P (.deliver sink event)) :
    Follows h.course (Task.hand p.logged sink event) := by
  cases sink with
  | discard => exact follows_pure ()
  | channel inbox =>
    refine h.follows fun s => ?_
    let both := (s.note (.called (.deliver (.channel inbox) event))).note
      (.returned (.deliver (.channel inbox) event) (.ok ()))
    have hboth : G s both := h.trans (h.called s hd) (h.returned _ _ _)
    have hpost := h.trans hboth (h.elsewhere both (p.post inbox event s.outside.2))
    have hlog : both.log = s.log ++ [.called (.deliver (.channel inbox) event),
        .returned (.deliver (.channel inbox) event) (.ok ())] := by simp [both]
    rw [hlog] at hpost
    exact hpost
  | callback key => exact follows_always (h.permits hd _)

theorem both {G' : Session (Log × ω) → Session (Log × ω) → Prop} (h : Growth p P G)
    (h' : Growth p P G') : Growth p P fun s s' => G s s' ∧ G' s s' where
  trans hab hbc := ⟨h.trans hab.1 hbc.1, h'.trans hab.2 hbc.2⟩
  unmoved hs := ⟨h.unmoved hs, h'.unmoved hs⟩
  elsewhere s w := ⟨h.elsewhere s w, h'.elsewhere s w⟩
  called s _ hd := ⟨h.called s hd, h'.called s hd⟩
  returned s d x := ⟨h.returned s d x, h'.returned s d x⟩
  asked ha := ⟨h.asked ha, h'.asked ha⟩
  unanswered ha := ⟨h.unanswered ha, h'.unanswered ha⟩

theorem given {F : Session (Log × ω) → Prop} (h : Growth p P G)
    (hF : ∀ {s s'}, G s s' → F s → F s') : Growth p P fun s s' => F s → G s s' where
  trans hab hbc hs := h.trans (hab hs) (hbc (hF (hab hs) hs))
  unmoved hs _ := h.unmoved hs
  elsewhere s w _ := h.elsewhere s w
  called s _ hd _ := h.called s hd
  returned s d x _ := h.returned s d x
  asked ha _ := h.asked ha
  unanswered ha _ := h.unanswered ha

theorem emits (h : Growth p P G) (hbook : ∀ s e, G s (Task.book s e))
    (hdeliver : ∀ sink event, P (.deliver sink event)) : Emits p G := by
  intro state message data error s
  cases hterm : s.active.courier.terminal with
  | some st =>
    rw [Task.emit_closed _ _ _ _ _ s (by simp [hterm])]
    exact h.refl s
  | none =>
    rw [Task.emit_open _ _ _ _ _ s hterm]
    exact h.trans (hbook s _) (h.grows (h.hand (hdeliver _ _)) _)

end Growth

theorem answer_active (p : Parties ω) (thread : Thread) (call : Call) (s : Session ω) :
    (answer p thread call s).2.active = s.active := by
  rcases answer_cases p thread call s with ⟨-, hf⟩ | ⟨t, -, hf⟩ | ⟨-, hk⟩ | ⟨name, -, ht⟩
  · exact hf.active
  · exact hf.active
  · rw [hk]
    rfl
  · rw [ht]

/-- Whatever is done for a task, it stays a task of its kind. -/
theorem work_growth (p : Parties ω) (P : Duty → Prop) :
    Growth p P fun s s' => s'.active.work = s.active.work where
  trans h h' := h'.trans h
  unmoved h := h.work
  elsewhere _ _ := rfl
  called _ _ _ := rfl
  returned _ _ _ := rfl
  asked {thread call a s s'} h := by
    have hkeeps := answer_active p.logged thread call s
    rw [h] at hkeeps
    exact congrArg Task.work hkeeps
  unanswered {thread call s s'} h := by
    have hkeeps := answer_active p.logged thread call s
    rw [h] at hkeeps
    exact congrArg Task.work hkeeps

end Session

open Run Session

variable {ω : Type} {p : Parties ω} {P : Duty → Prop}
variable {G : Session (Log × ω) → Session (Log × ω) → Prop}

namespace Link

theorem grows_covers (h : Growth p P G) {kind : Attempt → Bool}
    (hP : ∀ d, d.isConnecting kind = true → P d) : Covers h.course p kind where
  permits d hd := h.permits (hP d hd)
  counts _ := h.unmoved {}

theorem follows_publish {c : Course (Log × ω)}
    (hpermits : ∀ d, d.isPublishing = true → c.Permits p d)
    (hgoes : ∀ s r, c.Goes s { s with published := r }) : Follows c (publish p.logged) := by
  have hmodify : ∀ f : Published → Published, Follows c (modify fun s =>
      { s with published := f s.published } : Run (Log × ω) Unit) := fun f =>
    follows_modify fun s => hgoes s _
  have hask : ∀ {α : Type} (default : α) (d : Duty) (m : Play ω α), d.isPublishing = true →
      Follows c (valueOr default (party p.logged (m.logged d))) :=
    fun default d m hd => follows_valueOr default (hpermits d hd m)
  exact follows_bind (hask _ .info _ rfl) fun info =>
    follows_bind (hmodify fun r => { r with info }) fun _ =>
    follows_bind (hask _ .defaultSchema _ rfl) fun schema =>
    follows_bind (hmodify fun r => { r with defaultSchema := schema }) fun _ =>
    follows_bind (hask _ .interrupter _ rfl) fun handle =>
    hmodify fun r => { r with interrupter := handle }

theorem grows_publish (h : Growth p P G) (hP : ∀ d, d.isPublishing = true → P d) :
    Follows h.course (publish p.logged) :=
  follows_publish (fun d hd => h.permits (hP d hd)) fun _ _ =>
    h.unmoved {}

theorem grows_checkAlive (h : Growth p P G) (hping : P .ping)
    (hP : ∀ d, d.isConnecting Attempt.isAutomatic = true → P d) :
    Follows h.course (checkAlive p.logged) := by
  refine follows_bind follows_get fun s => ?_
  split
  · exact follows_pure ()
  · refine follows_bind (follows_attempt (h.permits hping _)) fun r => ?_
    cases r with
    | ok _ => exact follows_pure ()
    | error e =>
      dsimp only
      split
      · exact follows_bind (follows_restore (grows_covers h hP) rfl) fun _ => follows_pure ()
      · exact follows_pure ()

end Link

namespace Task

def runErrand (p : Parties ω) (key : Nat) : Run ω Unit := fun s =>
  playErrand p ((p.custom key).execute (context s) s.outside) s

/-- The course covers what tasks of every kind do when they are run or cancelled. -/
structure Undertakes (c : Course (Log × ω)) (p : Parties ω) : Prop
    extends toCarries : Carries c p where
  emits : ∀ state message data error, Follows c (emit p.logged state message data error)
  endsCancelled : Follows c (endCancelled p.logged)
  errand : ∀ {key s}, s.active.work = .custom key →
    c.Allows (runErrand p.logged key s).1 s (runErrand p.logged key s).2
  errands : ∀ d, d.isErrand = true → c.Permits p d
  stuck : ∀ s, c.Sticks s s

/-- The course covers the runs of tasks of every kind. -/
structure Performs (c : Course (Log × ω)) (p : Parties ω) : Prop
    extends toUndertaking : Undertakes c p where
  accounts : ∀ s stats held, c.Goes s { s with stats, statsHeld := held }
  stops : ∀ {s s'}, c.Panics s s' → c.Sticks s s'

theorem follows_cancel {c : Course (Log × ω)} (hends : Follows c (endCancelled p.logged))
    (herrand : ∀ key, c.Permits p (.cancelErrand key)) : Follows c (cancel p.logged) := by
  refine follows_bind follows_get fun s => ?_
  cases s.active.work with
  | query _ | schema _ => exact hends
  | custom key => exact follows_always (herrand key _)

namespace Undertakes

variable {c : Course (Log × ω)} (h : Undertakes c p)
include h

theorem follows_execute : Follows c (execute p.logged) := by
  intro s
  cases hw : s.active.work with
  | query q | schema action =>
    rw [execute_builtIn p.logged s (by rw [hw]; rfl)]
    refine follows_bind (follows_now _) (fun started => follows_bind (h.emits _ _ _ _) fun _ =>
      h.follows_pursue (fun q => ?_) started _) s
    exact h.follows_run q fun sql last started =>
      Query.follows_readSets h.toReading h.stuck q sql last started _
  | custom key =>
    have hcustom := h.errand hw
    unfold execute
    rw [get_bind_apply, hw]
    change c.Allows (always (runErrand p.logged key) s).1 s (always (runErrand p.logged key) s).2
    rw [always_snd, always, valueOr_apply]
    rcases hr : runErrand p.logged key s with ⟨(e | q | _) | _, s₁⟩ <;> rw [hr] at hcustom <;>
      exact hcustom

theorem follows_fail (e : Error) : Follows c (fail p.logged e) := by
  refine follows_bind follows_get fun s => ?_
  cases s.active.work with
  | query _ | schema _ => exact h.endsInError e
  | custom key => exact follows_always (h.errands (.failErrand key e) rfl _)

theorem follows_undertake (cancelled : Bool) : Follows c (undertake p.logged cancelled) := by
  refine follows_bind (follows_guarded ?_) fun r => ?_
  · cases cancelled
    · exact h.follows_execute
    · exact follows_cancel h.endsCancelled fun key => h.errands (.cancelErrand key) rfl
  · cases r with
    | ok _ => exact follows_pure ()
    | error q => exact follows_shielded (h.follows_fail _)

end Undertakes

namespace Performs

variable {c : Course (Log × ω)}

theorem follows_account (hreports : ∀ key, c.Permits p (.reportErrand key))
    (haccounts : ∀ s stats held, c.Goes s { s with stats, statsHeld := held })
    (hstops : ∀ {s s'}, c.Panics s s' → c.Sticks s s') : Follows c (account p.logged) := by
  have hreport : Follows c (report p.logged) := by
    refine follows_bind follows_get fun s => ?_
    cases s.active.work with
    | query _ | schema _ => exact follows_bind follows_get fun s => follows_pure _
    | custom key => exact follows_valueOr _ (hreports key _)
  exact follows_bind (follows_onPanic hreport (follows_modify fun s => haccounts s s.stats false)
    hstops) fun stats => follows_modify fun s => haccounts s _ false

theorem follows_perform (h : Performs c p) {t : Task}
    (hmilestone : ∀ i phase, c.Permits p (.milestone i phase t.requestId))
    (s : Session (Log × ω)) :
    c.Allows (perform p.logged t s).1 (takeUp t s) (perform p.logged t s).2 := by
  have hannounce : ∀ phase, Follows c (announce p.logged phase t.requestId) := fun phase =>
    follows_announce fun i => hmilestone i phase
  have hhold : Follows c (modify holdStats : Run (Log × ω) Unit) :=
    follows_modify fun s => h.accounts s s.stats true
  have haccount := follows_account (fun key => h.errands (.reportErrand key) rfl) h.accounts h.stops
  rw [perform_eq]
  exact follows_bind (hannounce _) (fun _ => follows_bind hhold fun _ =>
    follows_bind (h.follows_undertake _) fun _ => follows_bind haccount fun _ =>
      hannounce _) (takeUp t s)

end Performs

theorem grows_update (h : Growth p P G) {f : Task → Task} (hwork : ∀ t, (f t).work = t.work)
    (hcourier : ∀ t, (f t).courier = t.courier) : Follows h.course (update f) :=
  h.follows_unmoved fun _ => { work := hwork _, courier := hcourier _ }

theorem grows_emit (h : Growth p P G) (hemit : Emits p G) (state : Progress)
    (message : Option String) (data : Option EventData) (error : Option ErrorReport) :
    Follows h.course (emit p.logged state message data error) :=
  h.follows (hemit state message data error)

theorem grows_endInError (h : Growth p P G) (hemit : Emits p G) (e : Error) :
    Follows h.course (endInError p.logged e) := by
  refine follows_bind follows_get fun s => ?_
  split
  · exact follows_pure ()
  · exact follows_bind (grows_update h (fun _ => rfl) fun _ => rfl) fun _ =>
      grows_emit h hemit _ _ _ _

theorem grows_cancel (h : Growth p P G) (hemit : Emits p G) (hP : ∀ key, P (.cancelErrand key)) :
    Follows h.course (cancel p.logged) :=
  follows_cancel (follows_bind (grows_update h (fun _ => rfl) fun _ => rfl) fun _ =>
    grows_emit h hemit _ _ _ _) fun key => h.permits (hP key)

theorem playErrand_outside (p : Parties ω) (e : Errand ω) (s : Session ω) (w : ω) :
    playErrand p e { s with outside := w } = playErrand p e s := by
  cases e <;> simp [playErrand]

theorem grows_errand (h : Growth p P G) (hback : ∀ s, G s (Link.restore p.logged s).2)
    (key : Nat) (e : Errand ω) (s : Session (Log × ω)) :
    G s (playErrand p.logged (e.logged key s.log) s).2 := by
  -- what an errand does next may depend on every answer it got, so the log grows with the tree
  induction e generalizing s with
  | done x w => exact h.trans (h.elsewhere s w) (h.returned _ (.errand key) x)
  | ask thread call w next ih =>
    have hout := h.elsewhere s w
    simp only [Errand.logged, playErrand]
    rcases ha : answer p.logged thread call { s with outside := (s.log, w) } with ⟨_ | a, s₁⟩
    · exact h.trans hout (h.unanswered ha)
    · have hrest := ih a s₁.outside.2 (s₁.note (.asked thread call a))
      rw [log_note, note, playErrand_outside] at hrest
      exact h.trans (h.trans hout (h.asked ha)) hrest
  | reconnect w next ih =>
    have hout := h.elsewhere s w
    have hrestored := hback { s with outside := (s.log, w) }
    simp only [Errand.logged, playErrand]
    rcases hr : Link.restore p.logged { s with outside := (s.log, w) } with ⟨stop | b, s₁⟩ <;>
      rw [hr] at hrestored
    · exact h.trans hout hrestored
    · exact h.trans (h.trans hout hrestored) (ih b s₁.outside.2 s₁)

theorem grows_custom (h : Growth p P G) (hback : ∀ s, G s (Link.restore p.logged s).2)
    (key : Nat) (hP : P (.errand key)) (s : Session (Log × ω)) :
    G s (runErrand p.logged key s).2 := by
  have hcalled : G s (s.note (.called (.errand key))) := h.called s hP
  have hrun := grows_errand h hback key ((p.custom key).execute (context s) s.outside.2)
    (s.note (.called (.errand key)))
  rw [log_note, note, playErrand_outside] at hrun
  exact h.trans hcalled hrun

/-- A course that covers all that keeps the relation, and the restoring of the connection and the
custom tasks besides, covers the runs of tasks. -/
theorem performs_of_growth (h : Growth p P G) (hemit : Emits p G)
    (hP : ∀ d : Duty, (d.isReading || d.isSchema || d.isErrand) = true → P d)
    {c : Course (Log × ω)} (hpanics : ∀ {s s'}, G s s' → c.Panics s s')
    (hsticks : ∀ {s s'}, G s s' → c.Sticks s s') (hstops : ∀ {s s'}, c.Panics s s' → c.Sticks s s')
    (hrestores : ∀ {s₀ s : Session (Log × ω)}, Query.Loses p s₀ s → c.Goes s₀ s →
      c.Allows (Link.restore p.logged s).1 s₀ (Link.restore p.logged s).2)
    (herrand : ∀ {key s}, s.active.work = .custom key →
      c.Allows (runErrand p.logged key s).1 s (runErrand p.logged key s).2) :
    Performs c p :=
  have hfollows : ∀ {α : Type} {m : Run (Log × ω) α}, Follows h.course m → Follows c m :=
    fun hm s => Course.allows_of_panics (hpanics (h.grows hm s)) (hsticks (h.grows hm s))
  have hgoes : ∀ {s s'}, G s s' → c.Goes s s' := fun hG => c.goes (hpanics hG)
  { reading := fun d hd _ m => hfollows (h.permits (hP d (by simp [hd])) m)
    streams := fun _ => hfollows (follows_bind (grows_update h (fun _ => rfl) fun _ => rfl)
      fun _ => grows_emit h hemit _ _ _ _)
    endsWell := fun message data => hfollows (grows_emit h hemit _ message data none)
    updates := fun _ _ ht => hgoes (h.unmoved { work := ht.work, courier := ht.courier })
    restores := hrestores
    schema := fun d hd _ m => hfollows (h.permits (hP d (by simp [hd])) m)
    endsInError := fun e => hfollows (grows_endInError h hemit e)
    restarts := fun _ => hgoes (h.unmoved {})
    emits := fun _ _ _ _ => hfollows (grows_emit h hemit _ _ _ _)
    endsCancelled := hfollows (follows_bind (grows_update h (fun _ => rfl) fun _ => rfl) fun _ =>
      grows_emit h hemit _ _ _ _)
    errand := herrand
    errands := fun d hd _ m => hfollows (h.permits (hP d (by simp [hd])) m)
    accounts := fun _ _ _ => hgoes (h.unmoved {})
    stuck := fun s => hsticks (h.refl s)
    stops := hstops }

variable (h : Growth p P G) (hemit : Emits p G) (hP : ∀ d, d.isTaskwork = true → P d)
include h hemit hP

theorem grows_performs : Performs h.course p := by
  have hconnecting : ∀ d : Duty, d.isConnecting Attempt.isAutomatic = true → P d := fun d hd =>
    hP d (by simp [Duty.isTaskwork, hd])
  have hback := Link.follows_restore (Link.grows_covers h hconnecting) rfl
  refine performs_of_growth h hemit (fun d hd => hP d ?_) (fun hG => hG) (fun hG => hG)
    (fun hG => hG) (fun _ hgoes => (hback _).after hgoes) fun {key s} _ =>
    h.follows (fun s => grows_custom h (h.grows hback) key (hP _ rfl) s) s
  simp only [Bool.or_eq_true] at hd
  rcases hd with (hd | hd) | hd <;> simp [Duty.isTaskwork, hd]

theorem grows_undertake (cancelled : Bool) : Follows h.course (undertake p.logged cancelled) :=
  (grows_performs h hemit hP).follows_undertake cancelled

omit hemit in
theorem grows_account : Follows h.course (account p.logged) :=
  Performs.follows_account (fun key => h.permits (hP (.reportErrand key) rfl))
    (fun _ _ _ => h.unmoved {}) id

theorem grows_perform {t : Task} (hmilestone : ∀ i phase, P (.milestone i phase t.requestId))
    (s : Session (Log × ω)) : G (takeUp t s) (perform p.logged t s).2 := by
  have hrun := (grows_performs h hemit hP).follows_perform
    (fun i phase => h.permits (hmilestone i phase)) s
  rcases hr : perform p.logged t s with ⟨(_ | _ | _) | _, s'⟩ <;> rw [hr] at hrun <;> exact hrun

end Task

namespace Service

theorem grows_reply (h : Growth p P G) (ticket : Nat) (r : Option (Except Error Unit)) :
    Follows h.course (reply ticket r) :=
  h.follows_unmoved fun _ => {}

theorem grows_handleReconnect (h : Growth p P G)
    (hconnect : ∀ d, d.isConnecting (fun _ => true) = true → P d)
    (hpublish : ∀ d, d.isPublishing = true → P d) (options : Option Options) (ticket : Nat) :
    Follows h.course (handleReconnect p.logged options ticket) := by
  have hadopted : Follows h.course (modify (Session.adopted options)) := by
    cases options with
    | none => exact h.follows_unmoved fun _ => {}
    | some o => exact h.follows_unmoved fun _ => {}
  have hrenew : Follows h.course (Link.renew p.logged) :=
    follows_bind (Link.follows_reconnect (Link.grows_covers h hconnect) rfl) fun _ =>
      Link.grows_publish h hpublish
  exact follows_bind (follows_onPanic (follows_bind hadopted fun _ => follows_attempt hrenew)
    (grows_reply h ticket none) id) fun r => grows_reply h ticket (some r)

theorem grows_handleProbe (h : Growth p P G) (hclear : ∀ s, G s (clearProbe s)) (hping : P .ping)
    (hconnect : ∀ d, d.isConnecting Attempt.isAutomatic = true → P d) :
    Follows h.course (handleProbe p.logged) :=
  follows_bind (follows_modify hclear) fun _ => Link.grows_checkAlive h hping hconnect

end Service
end DatabaseSession
