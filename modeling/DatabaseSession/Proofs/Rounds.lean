import DatabaseSession.Proofs.Chronicle

namespace DatabaseSession

open Course Run Session

variable {ω α : Type}

namespace Turn

/-- Whatever is answered, no task is submitted during the turn. -/
def Submitless : Turn ω α → Prop
  | .done _ _ => True
  | .ask _ call _ next => call.submits = false ∧ ∀ a w, (next a w).Submitless

end Turn

/-- Nobody submits a task while the backend is torn down: neither the hooks at the close nor the
backend itself. -/
structure Parties.TearsDownAlone (p : Parties ω) : Prop where
  closes : ∀ hook ∈ p.hooks, ∀ w, (hook.onClose w).Submitless
  releases : ∀ w, (p.backend.release w).Submitless
  disposes : ∀ w, (p.backend.dispose w).Submitless

namespace Session

structure Finished (s : Session ω) : Prop where
  tasks : s.tasks = []
  begun : s.life ≠ .idle
  shut : s.life = .closed ∨ s.mailbox.receiving = false

/-- A session that was started, in good order. -/
structure Ready (s : Session ω) : Prop where
  tallied : Tallied s
  begun : s.life ≠ .idle
  finished : s.terminated.isSet = true → Finished s

theorem Proceeds.tasks_eq {P : Duty → Prop} {new : Log} {s s' : Session (Log × ω)}
    (h : Proceeds P new s s') : s'.tasks = s.tasks ++ Log.accepted new := by
  have htasks := Waitlist.tasks_after h.waitlist
  rw [Chronicle.incoming_entries, Chronicle.outgoing_entries] at htasks
  exact htasks.symm

theorem Proceeds.finished {P : Duty → Prop} {new : Log} {s s' : Session (Log × ω)}
    (h : Proceeds P new s s') (hs : Finished s) : Finished s' := by
  have hnone : Log.accepted new = [] := by
    by_contra hne
    obtain ⟨hlife, hrecv⟩ := h.accepted hne
    rcases hs.shut with hc | hc
    · simp [hc] at hlife
    · simp [hc] at hrecv
  refine ⟨by rw [h.tasks_eq, hs.tasks, hnone]; rfl, ?_, ?_⟩
  · rcases h.life with hl | ⟨-, hl⟩
    · rw [hl]
      exact hs.begun
    · simp [hl]
  · rcases h.life with hl | ⟨-, hl⟩
    · exact hs.shut.imp hl.trans h.receiving.trans
    · exact .inl hl

theorem Proceeds.ready {P : Duty → Prop} {new : Log} {s s' : Session (Log × ω)}
    (h : Proceeds P new s s') (hs : Ready s) : Ready s' where
  tallied := h.tallied
  begun := by
    rcases h.life with hl | ⟨-, hl⟩
    · rw [hl]
      exact hs.begun
    · simp [hl]
  finished := by
    rw [h.terminated]
    exact fun hset => h.finished (hs.finished hset)

theorem answer_tasks (p : Parties ω) (thread : Thread) {call : Call} (hcall : call.submits = false)
    (s : Session ω) : (answer p thread call s).2.tasks = s.tasks := by
  cases call with
  | execute _ | submit _ | assign _ => simp [Call.submits] at hcall
  | cancel id => rfl
  | _ => exact (answer_undisturbed p thread rfl s).tasks

end Session

namespace Chronicle

/-- Tasks were cancelled, and nothing came in between. -/
def Clears (c : Chronicle) : Prop := ∀ o ∈ c.outcomes, o = (.cancel, .ok ())

end Chronicle

/-- What winds a session up: the tasks that wait are cancelled, and once there are none, there are
none. -/
def Course.winding (p : Parties ω) : Course (Log × ω) :=
  .plain
    (fun s s' => Ready s → ∃ c : Chronicle, Chronicled p c s s' ∧ Ready s' ∧ c.Clears ∧
      (s.tasks = [] → s'.tasks = []))
    (fun s s' => Ready s → ∃ c : Chronicle, Chronicled p c s s' ∧ Ready s' ∧
      (∀ o ∈ c.outcomes, o.1 = .cancel) ∧ (c.Clears ∨ s'.terminated.isSet = false))
    (fun s hs => ⟨[], .refl hs.tallied, hs, by simp [Chronicle.Clears, Chronicle.outcomes], id⟩)
    (by
      rintro a b d h h' ha
      obtain ⟨c, hc, hb, hclears, htasks⟩ := h ha
      obtain ⟨c', hc', hd, hclears', htasks'⟩ := h' hb
      refine ⟨c ++ c', hc.append hc', hd, ?_, fun hempty => htasks' (htasks hempty)⟩
      intro o ho
      rw [Chronicle.outcomes_append] at ho
      exact (List.mem_append.mp ho).elim (hclears o) (hclears' o))
    (by
      rintro a b d h h' ha
      obtain ⟨c, hc, hb, hclears, -⟩ := h ha
      obtain ⟨c', hc', hd, hcancel, hend⟩ := h' hb
      refine ⟨c ++ c', hc.append hc', hd, ?_, hend.imp_left fun hclears' => ?_⟩
      · intro o ho
        rw [Chronicle.outcomes_append] at ho
        rcases List.mem_append.mp ho with ho | ho
        · rw [hclears o ho]
        · exact hcancel o ho
      · intro o ho
        rw [Chronicle.outcomes_append] at ho
        exact (List.mem_append.mp ho).elim (hclears o) (hclears' o))

namespace Course

variable {p : Parties ω}

theorem winding_sticks {s s' : Session (Log × ω)} (h : (winding p).Goes s s') :
    (winding p).Sticks s s' := by
  intro hs
  obtain ⟨c, hc, hs', hclears, -⟩ := h hs
  refine ⟨c, hc, hs', fun o ho => ?_, .inl hclears⟩
  rw [hclears o ho]

theorem winding_goes {new : Log} {s s' : Session (Log × ω)}
    (h : Ready s → Proceeds (fun d => d.isForTasks = false) new s s')
    (hwork : s'.active.work = s.active.work) (hcourier : s'.active.courier = s.active.courier)
    (htasks : s'.tasks = s.tasks) : (winding p).Goes s s' := by
  intro hs
  have hnew := h hs
  exact ⟨[.other new], .ofProceeds hnew hwork hcourier, hnew.ready hs, by simp [Chronicle.Clears],
    fun hempty => htasks.trans hempty⟩

theorem winding_undisturbed {s s' : Session (Log × ω)} (hlog : s'.log = s.log)
    (h : Undisturbed s s') (hwork : s'.active.work = s.active.work)
    (hcourier : s'.active.courier = s.active.courier) : (winding p).Goes s s' :=
  winding_goes (fun hs => .silent hs.tallied hlog h) hwork hcourier h.tasks

theorem winding_noted {s : Session (Log × ω)} {e : Entry} (hplain : e.Plain)
    (hcalls : ∀ d ∈ Log.calls [e], d.isForTasks = false) : (winding p).Goes s (s.note e) :=
  winding_goes (fun hs => .ofUndisturbed hs.tallied rfl hcalls (by simpa using hplain)
    ⟨rfl, rfl, rfl, rfl, .inl rfl⟩) rfl rfl rfl

theorem winding_play (d : Duty) {t : Turn ω α} (ht : t.Submitless) (s : Session (Log × ω)) :
    (winding p).Allows (play p.logged (t.logged d s.log) s).1 s
      (play p.logged (t.logged d s.log) s).2 := by
  induction t generalizing s with
  | done x w =>
    have hout : (winding p).Goes s { s with outside := (s.log, w) } :=
      winding_undisturbed rfl ⟨rfl, rfl, rfl, rfl, .inl rfl⟩ rfl rfl
    have hback := (winding p).trans hout
      (winding_noted (e := .returned d (x.map fun _ => ())) ⟨rfl, by simp⟩ (by simp))
    exact allows_of_panics hback (winding_sticks hback)
  | ask thread call w next ih =>
    obtain ⟨hcall, hnext⟩ := ht
    have hout : (winding p).Goes s { s with outside := (s.log, w) } :=
      winding_undisturbed rfl ⟨rfl, rfl, rfl, rfl, .inl rfl⟩ rfl rfl
    have htasks := answer_tasks p.logged thread hcall { s with outside := (s.log, w) }
    simp only [Turn.logged, play]
    rcases ha : answer p.logged thread call { s with outside := (s.log, w) } with ⟨_ | a, s₁⟩ <;>
      rw [ha] at htasks
    · have hi := unanswered_interlude p thread call _ s₁ ha
      have hwaits : (winding p).Goes { s with outside := (s.log, w) } s₁ :=
        winding_goes (fun hs => unanswered_proceeds p hs.tallied ha) (by rw [hi.active])
          (by rw [hi.active]) htasks
      exact (winding p).sticks hout (winding_sticks hwaits)
    · obtain ⟨asides, hi⟩ := answer_interlude p thread call a _ s₁ ha
      have hasked : (winding p).Goes { s with outside := (s.log, w) }
          (s₁.note (.asked thread call a)) := by
        intro hs
        obtain ⟨new, hnew⟩ := answer_proceeds p hs.tallied ha
        exact winding_goes (fun _ => hnew) (by rw [hi.active]) (by rw [hi.active]) htasks hs
      have hrest := ih a s₁.outside.2 (hnext a s₁.outside.2) (s₁.note (.asked thread call a))
      rw [log_note, note, play_outside] at hrest
      exact hrest.after ((winding p).trans hout hasked)

theorem winding_party {d : Duty} (hd : d.isForTasks = false) {m : Play ω α}
    (hm : ∀ w, (m w).Submitless) : Follows (winding p) (party p.logged (m.logged d)) := by
  intro s
  have hplay := winding_play (p := p) d (hm s.outside.2) (s.note (.called d))
  rw [log_note, note, play_outside] at hplay
  exact hplay.after (winding_noted ⟨rfl, by simp⟩ (by simpa using hd))

end Course

namespace Link

variable {p : Parties ω}

theorem winding_release (hp : p.TearsDownAlone) : Follows (winding p) (release p.logged) :=
  follows_release
    (fun _ => winding_undisturbed rfl ⟨rfl, rfl, rfl, rfl, .inl rfl⟩ rfl rfl)
    (fun _ hook hmem => winding_party rfl (hp.closes hook hmem)) (winding_party rfl hp.releases)

theorem winding_drop (hp : p.TearsDownAlone) : Follows (winding p) (drop p.logged) :=
  follows_drop (winding_release hp) (winding_party rfl hp.disposes) winding_sticks

end Link

namespace Service

/-- What taking a request comes to when its handling came to this. -/
def taken : Except Stop Bool → Except Stop (Option (Except Panic Bool))
  | .ok b => .ok (some (.ok b))
  | .error (.panic q) => .ok (some (.error q))
  | .error stop => .error stop

theorem takeNext_eq (p : Parties ω) {s s' : Session ω} {request : Request} {rest : List Request}
    (h : s.mailbox.queue = request :: rest) {y : Except Stop Bool}
    (hrun : handle p request (unqueued s rest) = (y, s')) : takeNext p s = (taken y, s') := by
  rw [takeNext_cons p h, bind_apply, guarded, hrun]
  rcases y with (_ | _ | _) | _ <;> rfl

theorem unqueued_undisturbed {s : Session ω} {request : Request} {rest : List Request}
    (h : s.mailbox.queue = request :: rest) (hrequest : request.task? = none) :
    Undisturbed s (unqueued s rest) := by
  refine ⟨?_, rfl, rfl, rfl, .inl rfl⟩
  simp [tasks, unqueued, h, hrequest]

theorem handle_idles (p : Parties ω) {request : Request} (hrequest : request.task? = none)
    (t : Task) : Follows (idle_growth p t).course (handle p.logged request) := by
  cases request with
  | close => exact follows_pure false
  | reconnect options ticket =>
    exact follows_bind (grows_handleReconnect _ (fun _ => Duty.isForTasks_of_isConnecting)
      (fun _ => Duty.isForTasks_of_isPublishing) options ticket) fun _ => follows_pure true
  | probe =>
    have hclear : ∀ s : Session (Log × ω), Pursues (fun d => d.isForTasks = false) (Resembles t) s
        (clearProbe s) := fun s hs hact => ⟨hact, [], .silent hs rfl ⟨rfl, rfl, rfl, rfl, .inl rfl⟩⟩
    exact follows_bind (grows_handleProbe _ hclear rfl fun _ => Duty.isForTasks_of_isConnecting)
      fun _ => follows_pure true
  | task u => simp [Request.task?] at hrequest

/-- A request that is no task is taken out and handled without a trace of it on the tasks. -/
theorem takeNext_other (p : Parties ω) {s : Session (Log × ω)} (hs : Tallied s)
    {request : Request} {rest : List Request} (h : s.mailbox.queue = request :: rest)
    (hrequest : request.task? = none) :
    Resembles s.active (takeNext p.logged s).2.active ∧
      ∃ log, Proceeds (fun d => d.isForTasks = false) log s (takeNext p.logged s).2 := by
  have hout : Proceeds (fun d => d.isForTasks = false) [] s (unqueued s rest) :=
    .silent hs rfl (unqueued_undisturbed h hrequest)
  rcases hrun : handle p.logged request (unqueued s rest) with ⟨y, s'⟩
  rw [takeNext_eq p.logged h hrun]
  obtain ⟨hactive, log, hlog⟩ :=
    (idle_growth p s.active).grows (handle_idles p hrequest s.active) (unqueued s rest) hout.tallied
      ⟨rfl, rfl⟩
  rw [hrun] at hactive hlog
  exact ⟨hactive, _, hout.append hlog⟩

theorem dropTask_chronicled (p : Parties ω) (t : Task) {s : Session (Log × ω)} (hs : Tallied s) :
    Chronicled p [.other []] s (dropTask t s) := by
  have hactive := (dropTask_filed t s).active
  exact .ofProceeds (dropTask_proceeds t hs) (by rw [hactive]) (by rw [hactive])

theorem takeNext_task (p : Parties ω) {s : Session (Log × ω)} (hs : Tallied s) {t : Task}
    {rest : List Request} (h : s.mailbox.queue = .task t :: rest) :
    ∃ (y : Except Stop Unit) (c : Chronicle),
      (takeNext p.logged s).1 = taken (y.map fun _ => true) ∧ (∀ e, y ≠ .error (.error e)) ∧
        Chronicled p c s (takeNext p.logged s).2 ∧ c.outcomes = [(.run, y)] ∧
        (takeNext p.logged s).2.terminated = s.terminated := by
  rcases hrun : Task.perform p.logged t (unqueued s rest) with ⟨y, b⟩
  have hserves : Tallied (Task.takeUp t (unqueued s rest)) →
      ∃ log, Proceeds (Duty.Serves t) log (Task.takeUp t (unqueued s rest)) b ∧
        (Episode.task .run t (Task.marked t s) y log).Tells p := by
    intro htallied
    obtain ⟨log, hlog, hcarried⟩ := Task.perform_proceeds p t htallied hrun
    exact ⟨log, hlog, hlog.calls, hcarried⟩
  obtain ⟨log, hlog, hran⟩ :=
    chronicled_of_task .run (Task.takeUp t (unqueued s rest)) hs h hrun rfl rfl rfl rfl hserves
  have htells : (Episode.task .run t (Task.marked t s) y log).Tells p := hran.tells _ (by simp)
  have hcarried : Task.Carried p t y log := htells.2
  have hdropped := hran.append (dropTask_chronicled p t hran.tallied)
  have hterminated : (dropTask t b).terminated = s.terminated :=
    (dropTask_undisturbed t b).terminated.trans hlog.terminated
  -- unless it never comes back, the task goes, with the handle that it may keep
  rcases y with (e | q | _) | _
  · exact absurd rfl (hcarried.unfailing e)
  · have hhandle : handle p.logged (.task t) (unqueued s rest) =
        (.error (.panic q), dropTask t b) := by
      simp [handle, bind_apply, ensuring, hrun]
    rw [takeNext_eq p.logged h hhandle]
    exact ⟨_, _, rfl, hcarried.unfailing, hdropped, rfl, hterminated⟩
  · have hhandle : handle p.logged (.task t) (unqueued s rest) = (.error .hang, b) := by
      simp [handle, bind_apply, ensuring, hrun]
    rw [takeNext_eq p.logged h hhandle]
    exact ⟨_, _, rfl, hcarried.unfailing, hran, rfl, hlog.terminated⟩
  · have hhandle : handle p.logged (.task t) (unqueued s rest) = (.ok true, dropTask t b) := by
      simp [handle, bind_apply, ensuring, hrun]
    rw [takeNext_eq p.logged h hhandle]
    exact ⟨_, _, rfl, hcarried.unfailing, hdropped, rfl, hterminated⟩

/-- What becomes of a request that is still in the queue at the end. -/
def dismiss (p : Parties ω) : Request → Run ω Unit
  | .task t => discardTask p t
  | .reconnect _ ticket => do reply ticket (some (.error (← get).alreadyClosed))
  | .probe | .close => pure ()

theorem emptyQueue_nil (p : Parties ω) (patience : Nat) {s : Session ω}
    (h : s.mailbox.queue = []) : emptyQueue p (patience + 1) s = (.ok (), s) := by
  rw [emptyQueue, bind_apply, dequeue, get_bind_apply, h]
  rfl

theorem emptyQueue_cons (p : Parties ω) (patience : Nat) {s : Session ω} {request : Request}
    {rest : List Request} (h : s.mailbox.queue = request :: rest) :
    emptyQueue p (patience + 1) s =
      (dismiss p request >>= fun _ => emptyQueue p patience) (unqueued s rest) := by
  rw [emptyQueue, bind_apply, dequeue, get_bind_apply, h]
  cases request <;> rfl

theorem emptyQueue_empties (p : Parties ω) (patience : Nat) :
    Leaves (fun s => s.mailbox.queue = []) (emptyQueue p patience) := by
  induction patience with
  | zero => exact leaves_hang
  | succ patience ih =>
    intro s a s' hrun
    cases hq : s.mailbox.queue with
    | nil =>
      rw [emptyQueue_nil p patience hq] at hrun
      cases hrun
      exact hq
    | cons request rest =>
      rw [emptyQueue_cons p patience hq] at hrun
      exact leaves_bind (fun _ => ih) _ a s' hrun

theorem discardTask_winds (p : Parties ω) {s : Session (Log × ω)} {t : Task} {rest : List Request}
    (h : s.mailbox.queue = .task t :: rest) :
    (winding p).Allows (discardTask p.logged t (unqueued s rest)).1 s
      (discardTask p.logged t (unqueued s rest)).2 := by
  rcases hrun : discardTask p.logged t (unqueued s rest) with ⟨x, b⟩
  have hwaits : s.tasks ≠ [] := by simp [tasks, h, Request.task?]
  -- what waits was not there when the end was signalled
  have hunsignalled : Ready s → s.terminated.isSet = false := by
    intro hs
    by_contra hset
    exact hwaits (hs.finished (by simpa using hset)).tasks
  have hcancelled : Ready s → ∃ c : Chronicle, Chronicled p c s b ∧ Ready b ∧
      c.outcomes = [(.cancel, x)] ∧ (x = .ok () ∨ x = .error .hang) ∧
      b.terminated.isSet = false := by
    intro hs
    have hworks : Tallied (putAside t (unqueued s rest)) →
        ∃ log, Proceeds (Duty.WorksFor t) log (putAside t (unqueued s rest)) b ∧
          (Episode.task .cancel t (Task.marked t s) x log).Tells p := by
      intro htallied
      obtain ⟨hx, log, hlog⟩ := discardTask_proceeds p t htallied hrun
      exact ⟨log, hlog, hlog.calls, hx⟩
    obtain ⟨log, hlog, hc⟩ := chronicled_of_task .cancel (putAside t (unqueued s rest)) hs.tallied h
      hrun rfl rfl rfl rfl hworks
    have htells : (Episode.task .cancel t (Task.marked t s) x log).Tells p := hc.tells _ (by simp)
    have hstill : b.terminated.isSet = false := by
      rw [hlog.terminated]
      exact hunsignalled hs
    refine ⟨_, hc, ⟨hlog.tallied, ?_, by simp [hstill]⟩, rfl, htells.2, hstill⟩
    rcases hlog.life with hl | ⟨-, hl⟩
    · rw [hl]
      exact hs.begun
    · simp [hl]
  have hgoes : x = .ok () → (winding p).Goes s b := by
    intro hx hs
    obtain ⟨c, hc, hb, houtcomes, -⟩ := hcancelled hs
    refine ⟨c, hc, hb, ?_, fun hempty => absurd hempty hwaits⟩
    intro o ho
    rw [houtcomes, hx] at ho
    exact List.mem_singleton.mp ho
  have hsticks : (winding p).Sticks s b := by
    intro hs
    obtain ⟨c, hc, hb, houtcomes, -, hstill⟩ := hcancelled hs
    refine ⟨c, hc, hb, ?_, .inr hstill⟩
    intro o ho
    rw [houtcomes] at ho
    rw [List.mem_singleton.mp ho]
  have hnot : ∀ stop, stop ≠ .hang → x = .error stop → (winding p).Goes s b := by
    intro stop hne hx hs
    obtain ⟨-, -, -, -, hx' | hx', -⟩ := hcancelled hs
    · simp [hx] at hx'
    · exact absurd (by simpa [hx] using hx') hne
  rcases x with (e | q | _) | _
  · exact hnot _ (by simp) rfl
  · exact hnot _ (by simp) rfl
  · exact hsticks
  · exact hgoes rfl

/-- Nothing is run while the queue is emptied: what waits is cancelled. -/
theorem winding_emptyQueue (p : Parties ω) (patience : Nat) :
    Follows (winding p) (emptyQueue p.logged patience) := by
  induction patience with
  | zero => exact follows_hang fun s => winding_sticks ((winding p).refl s)
  | succ patience ih =>
    intro s
    cases hq : s.mailbox.queue with
    | nil =>
      rw [emptyQueue_nil p.logged patience hq]
      exact (winding p).refl s
    | cons request rest =>
      have hdismissed : (winding p).Allows (dismiss p.logged request (unqueued s rest)).1 s
          (dismiss p.logged request (unqueued s rest)).2 := by
        cases request with
        | task t => exact discardTask_winds p hq
        | reconnect options ticket =>
          have hout := unqueued_undisturbed hq rfl
          exact winding_undisturbed rfl ⟨hout.tasks, rfl, rfl, rfl, hout.life⟩ rfl rfl
        | probe | close => exact winding_undisturbed rfl (unqueued_undisturbed hq rfl) rfl rfl
      rw [emptyQueue_cons p.logged patience hq, bind_apply]
      rcases hrun : dismiss p.logged request (unqueued s rest) with ⟨stop | _, b⟩ <;>
        rw [hrun] at hdismissed
      · cases stop <;> exact hdismissed
      · exact (ih b).after hdismissed

/-- The computation winds a session up, and where it comes back nothing waits. -/
structure Empties (p : Parties ω) (m : Run (Log × ω) α) : Prop where
  follows : Follows (winding p) m
  empties : ∀ s, Ready s → (m s).1 ≠ .error .hang → (m s).2.tasks = []

theorem winding_dismissed {p : Parties ω} {s s' : Session (Log × ω)} (hempty : s.tasks = [])
    (hlog : s'.log = s.log) (hqueue : s'.mailbox.queue = s.mailbox.queue)
    (hregistry : s'.registry = s.registry) (hlife : s'.life = s.life)
    (hreceiving : s'.mailbox.receiving = false) (hactive : s'.active = s.active) :
    (winding p).Goes s s' := by
  intro hs
  have htasks : s'.tasks = s.tasks := by rw [tasks, hqueue, tasks]
  have hbegun : s'.life ≠ .idle := by
    rw [hlife]
    exact hs.begun
  have htallied : Tallied s' := by
    refine ⟨?_, ?_, fun _ => htasks.trans hempty⟩
    · rw [hregistry, htasks]
      exact hs.tallied.waiting
    · rw [hregistry]
      exact hs.tallied.marked
  have hidle : Idles [] s s' := ⟨by simp [hlog], by simp, by rw [hactive], by rw [hactive]⟩
  have hsame : s'.waitlist = s.waitlist := by rw [waitlist, htasks, hregistry, waitlist]
  refine ⟨[.other []], ⟨.other .refl hidle, ?_, htallied, ?_, .inl hlife⟩,
    ⟨htallied, hbegun, fun _ => ⟨htasks.trans hempty, hbegun, .inr hreceiving⟩⟩,
    by simp [Chronicle.Clears], fun _ => htasks.trans hempty⟩
  · simp [Episode.Tells]
  · rw [hsame]
    rfl

namespace Empties

variable {β : Type} {p : Parties ω} {m : Run (Log × ω) α} {after : Run (Log × ω) Unit}

theorem ready (h : Follows (winding p) m) {s s' : Session (Log × ω)} (hs : Ready s)
    {x : Except Stop α} (hrun : m s = (x, s')) (hx : x ≠ .error .hang) :
    Ready s' ∧ (s.tasks = [] → s'.tasks = []) := by
  have hallows := h s
  rw [hrun] at hallows
  obtain ⟨-, -, hs', -, htasks⟩ := hallows.goes hx hs
  exact ⟨hs', htasks⟩

theorem runs (h : Empties p m) {s s' : Session (Log × ω)} (hs : Ready s) {x : Except Stop α}
    (hrun : m s = (x, s')) (hx : x ≠ .error .hang) : Ready s' ∧ s'.tasks = [] := by
  have hempty := h.empties s hs
  rw [hrun] at hempty
  exact ⟨(ready h.follows hs hrun hx).1, hempty hx⟩

theorem bind {f : α → Run (Log × ω) β} (hm : Empties p m)
    (hf : ∀ a s, s.tasks = [] → (winding p).Allows (f a s).1 s (f a s).2) :
    Empties p (m >>= f) := by
  constructor
  · intro s
    have hallows := hm.follows s
    have hempty := hm.empties s
    rw [bind_apply]
    rcases hrun : m s with ⟨stop | a, s₁⟩ <;> rw [hrun] at hallows hempty
    · cases stop <;> exact hallows
    · have hnext : Ready s → (winding p).Allows (f a s₁).1 s (f a s₁).2 := fun hs =>
        (hf a s₁ (hempty hs (by simp))).after hallows
      dsimp only
      rcases hr : f a s₁ with ⟨(_ | _ | _) | _, s₂⟩ <;> rw [hr] at hnext <;>
        exact fun hs => hnext hs hs
  · intro s hs
    rw [bind_apply]
    rcases hrun : m s with ⟨stop | a, s₁⟩
    · intro hx
      exact (hm.runs hs hrun (by simpa using hx)).2
    · obtain ⟨hs₁, hempty⟩ := hm.runs hs hrun (by simp)
      intro hx
      obtain ⟨-, -, -, -, htasks⟩ := (hf a s₁ hempty).goes hx hs₁
      exact htasks hempty

theorem onPanic (hm : Empties p m) (hafter : Empties p after) : Empties p (onPanic m after) := by
  refine ⟨follows_onPanic hm.follows hafter.follows winding_sticks, fun s hs => ?_⟩
  unfold Run.onPanic
  rcases hrun : m s with ⟨(e | q | _) | a, s₁⟩ <;> dsimp only
  case error.panic =>
    have hs₁ := (hm.runs hs hrun (by simp)).1
    rcases ha : after s₁ with ⟨(_ | _ | _) | _, s₂⟩ <;> intro hx
    · exact (hafter.runs hs₁ ha (by simp)).2
    · exact absurd rfl hx
    · exact absurd rfl hx
    · exact (hafter.runs hs₁ ha (by simp)).2
  all_goals exact fun hx => (hm.runs hs hrun hx).2

theorem ensuring_first (hm : Empties p m) (hafter : Follows (winding p) after) :
    Empties p (ensuring m after) := by
  refine ⟨follows_ensuring hm.follows hafter winding_sticks, fun s hs => ?_⟩
  rcases hr : ensuring m after s with ⟨x, s'⟩
  intro hx
  obtain ⟨y, s₁, z, hrun, hy, ha, hz⟩ := ensuring_runs hr hx
  obtain ⟨hs₁, hempty⟩ := hm.runs hs hrun hy
  exact (ready hafter hs₁ ha hz).2 hempty

theorem ensuring_last (hm : Follows (winding p) m) (hafter : Empties p after) :
    Empties p (ensuring m after) := by
  refine ⟨follows_ensuring hm hafter.follows winding_sticks, fun s hs => ?_⟩
  rcases hr : ensuring m after s with ⟨x, s'⟩
  intro hx
  obtain ⟨y, s₁, z, hrun, hy, ha, hz⟩ := ensuring_runs hr hx
  exact (hafter.runs (ready hm hs hrun hy).1 ha hz).2

theorem guarded (hm : Empties p m) : Empties p (guarded m) := by
  refine ⟨follows_guarded hm.follows, fun s hs => ?_⟩
  unfold Run.guarded
  rcases hrun : m s with ⟨(e | q | _) | a, s₁⟩ <;> intro hx
  case error.hang => exact absurd rfl hx
  all_goals exact (hm.runs hs hrun (by simp)).2

end Empties

variable {p : Parties ω}

theorem empties_windUp (hp : p.TearsDownAlone) : Empties p (windUp p.logged) := by
  have hquiet : Follows (winding p) (modify fun s =>
      { s with mailbox := { s.mailbox with probing := none } } : Run (Log × ω) Unit) :=
    follows_modify fun s => winding_undisturbed rfl ⟨rfl, rfl, rfl, rfl, .inl rfl⟩ rfl rfl
  have hcleared : Empties p ((modify fun s =>
      { s with mailbox := { s.mailbox with probing := none } } : Run (Log × ω) Unit) >>=
        fun _ => emptyQueue p.logged p.patience) := by
    refine ⟨follows_bind hquiet fun _ => winding_emptyQueue p _, fun s _ hx => ?_⟩
    rw [bind_apply, modify_apply] at hx ⊢
    dsimp only at hx ⊢
    rcases hrun : emptyQueue p.logged p.patience
      { s with mailbox := { s.mailbox with probing := none } } with ⟨stop | _, s₁⟩
    · rw [hrun, stops_emptyQueue p.logged p.patience _ stop (by rw [hrun])] at hx
      exact absurd rfl hx
    · have hqueue := emptyQueue_empties p.logged p.patience _ _ _ hrun
      simp [tasks, hqueue]
  have hreleased := hcleared.bind (f := fun _ => Link.release p.logged) fun _ s _ =>
    Link.winding_release hp s
  have hsignalled := hreleased.bind (f := fun _ => modify fun s =>
      { s with terminated := s.terminated.set, mailbox := { s.mailbox with receiving := false } })
    fun _ s hempty => winding_dismissed hempty rfl rfl rfl rfl rfl rfl
  rw [bind_assoc, bind_assoc] at hsignalled
  exact hsignalled

theorem empties_exit (hp : p.TearsDownAlone) {m : Run (Log × ω) Unit} (hm : Empties p m) :
    Empties p (exit p.logged m) :=
  (hm.ensuring_first (Link.winding_drop hp)).guarded.bind fun _ _ hempty =>
    winding_dismissed hempty rfl rfl rfl rfl rfl rfl

/-- However the worker comes to its end, what waits is cancelled, and nothing is left. -/
theorem empties_leave (hp : p.TearsDownAlone) (cause : Option Panic) :
    Empties p (leave p.logged cause) := by
  have hwindUp := empties_windUp hp
  cases cause with
  | none => exact empties_exit hp (hwindUp.onPanic hwindUp)
  | some q => exact empties_exit hp (.ensuring_last (fun s => (winding p).refl s) hwindUp)

end Service
end DatabaseSession
