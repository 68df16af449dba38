import DatabaseSession.Proofs.Moves
import DatabaseSession.Proofs.Rounds

namespace DatabaseSession

open Run Session

variable {ω : Type}

namespace Session

structure Shut (s : Session ω) : Prop where
  life : s.life = .closed
  tasks : s.tasks = []
  registry : s.registry = ⟨[], []⟩

theorem Shut.tallied {s : Session ω} (h : Shut s) : Tallied s where
  waiting := by simp [h.tasks, h.registry]
  marked := by simp [h.registry]
  attended _ := h.tasks

theorem Shut.finished {s : Session ω} (h : Shut s) : Finished s :=
  ⟨h.tasks, by simp [h.life], .inl h.life⟩

theorem Shut.waitlist {s : Session ω} (h : Shut s) : s.waitlist = {} := by
  rw [Session.waitlist, h.tasks, h.registry]

/-- A session that is shut stays so, whatever the log tells. -/
def Shuts (s s' : Session (Log × ω)) : Prop :=
  Shut s → Shut s' ∧ ∃ log, Idles log s s' ∧ Waitlist.after {} (log.map .entry) = some {}

theorem Idles.append {a b c : Session (Log × ω)} {log log' : Log} (h : Idles log a b)
    (h' : Idles log' b c) : Idles (log ++ log') a c where
  log := by rw [h'.log, h.log, List.append_assoc]
  calls := by
    intro d hd
    rw [Log.calls_append] at hd
    exact (List.mem_append.mp hd).elim (h.calls d) (h'.calls d)
  work := h'.work.trans h.work
  courier := h'.courier.trans h.courier

theorem Shuts.trans {a b c : Session (Log × ω)} (h : Shuts a b) (h' : Shuts b c) : Shuts a c := by
  intro ha
  obtain ⟨hb, log, hidle, hafter⟩ := h ha
  obtain ⟨hc, log', hidle', hafter'⟩ := h' hb
  refine ⟨hc, log ++ log', hidle.append hidle', ?_⟩
  rw [List.map_append, Waitlist.after_append, hafter]
  exact hafter'

theorem shuts_of_same {s s' : Session (Log × ω)} (hlog : s'.log = s.log)
    (hlife : s'.life = s.life) (hqueue : s'.mailbox.queue = s.mailbox.queue)
    (hregistry : s'.registry = s.registry) (hactive : s'.active = s.active) : Shuts s s' := by
  intro hs
  refine ⟨⟨hlife.trans hs.life, ?_, hregistry.trans hs.registry⟩, [], ?_, rfl⟩
  · rw [tasks, hqueue]
    exact hs.tasks
  · exact ⟨by simp [hlog], by simp, by rw [hactive], by rw [hactive]⟩

/-- As nothing is accepted in a closed session, what is done for no task leaves it shut. -/
theorem shuts_of_pursues {s s' : Session (Log × ω)}
    (h : Pursues (fun d => d.isForTasks = false) (Resembles s.active) s s') : Shuts s s' := by
  intro hs
  obtain ⟨⟨hwork, hcourier⟩, log, hlog⟩ := h hs.tallied ⟨rfl, rfl⟩
  have hend := hlog.finished hs.finished
  have hlife : s'.life = .closed := by
    rcases hlog.life with hl | ⟨-, hl⟩
    · rw [hl, hs.life]
    · exact hl
  have hshut : Shut s' := ⟨hlife, hend.tasks, hlog.tallied.registry_of_empty hend.tasks⟩
  refine ⟨hshut, log, ⟨hlog.log, hlog.calls, hwork, hcourier⟩, ?_⟩
  have hafter := hlog.waitlist
  rw [hs.waitlist, hshut.waitlist] at hafter
  exact hafter

theorem shut_growth (p : Parties ω) : Growth p (fun d => d.isForTasks = false) Shuts where
  trans := .trans
  unmoved h := shuts_of_pursues ((idle_growth p _).unmoved h)
  elsewhere s w := shuts_of_pursues ((idle_growth p _).elsewhere s w)
  called s _ hd := shuts_of_pursues ((idle_growth p _).called s hd)
  returned s d x := shuts_of_pursues ((idle_growth p _).returned s d x)
  asked ha := shuts_of_pursues ((idle_growth p _).asked ha)
  unanswered ha := shuts_of_pursues ((idle_growth p _).unanswered ha)

end Session

variable (p : Parties ω)

namespace Link

theorem shuts_release : Follows (shut_growth p).course (release p.logged) :=
  follows_release (fun _ => shuts_of_same rfl rfl rfl rfl rfl)
    (fun _ _ _ => (shut_growth p).permits rfl _) ((shut_growth p).permits rfl _)

theorem shuts_drop : Follows (shut_growth p).course (drop p.logged) :=
  follows_drop (shuts_release p) ((shut_growth p).permits rfl _) id

theorem shuts_covers : Covers (shut_growth p).course p fun _ => true :=
  grows_covers (shut_growth p) fun _ => Duty.isForTasks_of_isConnecting

theorem shuts_connect : Follows (shut_growth p).course (connect p.logged) :=
  follows_connect (shuts_covers p) rfl

theorem shuts_publish : Follows (shut_growth p).course (publish p.logged) :=
  grows_publish (shut_growth p) fun _ => Duty.isForTasks_of_isPublishing

end Link

namespace Service

theorem shuts_emptyQueue (patience : Nat) :
    Follows (shut_growth p).course (emptyQueue p.logged patience) := by
  induction patience with
  | zero => exact follows_hang fun s => (shut_growth p).refl s
  | succ patience ih =>
    refine (shut_growth p).follows fun s => ?_
    cases hq : s.mailbox.queue with
    | nil =>
      rw [emptyQueue_nil p.logged patience hq]
      exact (shut_growth p).refl s
    | cons request rest =>
      -- a task in the queue would not have been let in
      cases hr : request.task? with
      | some t =>
        intro hs
        have htasks := hs.tasks
        simp [tasks, hq, hr] at htasks
      | none =>
        have hout : Shuts s (unqueued s rest) := shuts_of_pursues fun hs hact =>
          ⟨hact, [], .silent hs rfl (unqueued_undisturbed hq hr)⟩
        have hdismiss : Follows (shut_growth p).course (dismiss p.logged request) := by
          cases request with
          | task t => simp [Request.task?] at hr
          | reconnect options ticket =>
            exact follows_bind follows_get fun s => grows_reply (shut_growth p) ticket _
          | probe | close => exact follows_pure ()
        rw [emptyQueue_cons p.logged patience hq]
        exact hout.trans ((shut_growth p).grows (follows_bind hdismiss fun _ => ih) _)

theorem shuts_windUp : Follows (shut_growth p).course (windUp p.logged) := by
  have hsame : ∀ f : Session (Log × ω) → Session (Log × ω), (∀ s, Shuts s (f s)) →
      Follows (shut_growth p).course (modify f : Run (Log × ω) Unit) :=
    fun f hf => follows_modify hf
  exact follows_bind (hsame _ fun _ => shuts_of_same rfl rfl rfl rfl rfl) fun _ =>
    follows_bind (shuts_emptyQueue p _) fun _ => follows_bind (Link.shuts_release p) fun _ =>
      hsame _ fun _ => shuts_of_same rfl rfl rfl rfl rfl

theorem shuts_exit {m : Run (Log × ω) Unit} (hm : Follows (shut_growth p).course m) :
    Follows (shut_growth p).course (exit p.logged m) :=
  follows_bind (follows_guarded (follows_ensuring hm (Link.shuts_drop p) id)) fun _ =>
    follows_modify fun _ => shuts_of_same rfl rfl rfl rfl rfl

theorem shuts_startup : Follows (shut_growth p).course (startup p.logged) := by
  refine follows_bind (follows_attempt (Link.shuts_connect p)) fun r => ?_
  cases r with
  | ok _ => exact follows_bind (Link.shuts_publish p) fun _ => follows_pure _
  | error e =>
    exact follows_bind (Link.shuts_release p) fun _ => follows_bind
      (follows_modify fun _ => shuts_of_same rfl rfl rfl rfl rfl) fun _ => follows_pure _

theorem shuts_launch : Follows (shut_growth p).course (launch p.logged) := by
  have hsame : ∀ f : Session (Log × ω) → Session (Log × ω), (∀ s, Shuts s (f s)) →
      Follows (shut_growth p).course (modify f : Run (Log × ω) Unit) :=
    fun f hf => follows_modify hf
  refine follows_bind (hsame _ fun _ => shuts_of_same rfl rfl rfl rfl rfl) fun _ =>
    follows_bind (follows_guarded (shuts_startup p)) fun r => ?_
  rcases r with q | e | _
  · refine follows_bind (shuts_exit p (follows_ensuring (fun s => ?_) (shuts_windUp p) id)) fun _ =>
      follows_bind follows_get fun _ => follows_pure _
    exact (shut_growth p).refl s
  · exact follows_bind (shuts_exit p (follows_pure ())) fun _ => follows_pure _
  · exact follows_bind (hsame _ fun _ => shuts_of_same rfl rfl rfl rfl rfl) fun _ => follows_pure _

theorem exists_of_startup_ok {p : Parties ω} {s s' : Session ω}
    (h : startup p s = (.ok (.ok ()), s')) :
    ∃ s₁, Link.connect p s = (.ok (), s₁) ∧ Link.publish p s₁ = (.ok (), s') := by
  unfold startup at h
  rw [bind_apply, attempt] at h
  rcases hr : Link.connect p s with ⟨(e | q | _) | _, s₁⟩ <;> rw [hr] at h <;> dsimp only at h
  · rw [bind_apply] at h
    rcases hrel : Link.release p s₁ with ⟨stop | _, s₂⟩ <;> rw [hrel] at h <;> cases h
  · cases h
  · cases h
  · obtain ⟨_, s₂, hpublish, hrest⟩ := exists_of_bind_ok h
    cases hrest
    exact ⟨s₁, rfl, hpublish⟩

/-- A worker that has started has connected, and begins to probe. -/
theorem exists_of_launch_ok {p : Parties ω} {s s' : Session ω}
    (h : launch p s = (.ok (.ok ()), s')) :
    ∃ s₁ s₂, Link.connect p { s with mailbox := { s.mailbox with receiving := true } } =
        (.ok (), s₁) ∧ Link.publish p s₁ = (.ok (), s₂) ∧
      s' = { s₂ with mailbox := { s₂.mailbox with
        probing := s₂.link.options.probeInterval } } := by
  unfold launch at h
  rw [bind_apply, modify_apply] at h
  dsimp only at h
  rw [bind_apply, guarded] at h
  rcases hr : startup p { s with mailbox := { s.mailbox with receiving := true } } with
    ⟨(e | q | _) | e | _, s₂⟩ <;> rw [hr] at h <;> dsimp only at h
  · cases h
  · rw [bind_apply] at h
    rcases hexit : leave p (some q) s₂ with
      ⟨stop | _, s₃⟩ <;> rw [hexit] at h <;> cases h
  · cases h
  · rw [bind_apply] at h
    rcases hexit : exit p (pure ()) s₂ with ⟨stop | _, s₃⟩ <;> rw [hexit] at h <;> cases h
  · obtain ⟨s₁, hconnect, hpublish⟩ := exists_of_startup_ok hr
    cases h
    exact ⟨s₁, s₂, hconnect, hpublish, rfl⟩

theorem launch_unsignalled {s s' : Session (Log × ω)}
    (h : launch p.logged s = (.ok (.ok ()), s')) : s'.terminated = s.terminated := by
  obtain ⟨s₁, s₂, hconnect, hpublish, rfl⟩ := exists_of_launch_ok h
  have hconnected := Link.inUse_connect p { s with mailbox := { s.mailbox with receiving := true } }
  have hpublished := Link.inUse_publish p s₁
  rw [hconnect] at hconnected
  rw [hpublish] at hpublished
  exact hpublished.terminated.trans hconnected.terminated

end Service

namespace Session

theorem shuts_closeHere : Follows (shut_growth p).course (closeHere p.logged) :=
  follows_ensuring (follows_bind (Link.shuts_release p) fun _ =>
    follows_modify fun _ => shuts_of_same rfl rfl rfl rfl rfl) (Link.shuts_drop p) fun h => h

/-- What a session becomes that is started, or is closed without having been. -/
structure Opens (s s' : Session (Log × ω)) : Prop where
  idles : ∃ log, Idles log s s' ∧ Waitlist.after {} (log.map .entry) = some {}
  tasks : s'.tasks = []
  registry : s'.registry = ⟨[], []⟩
  begun : s'.life ≠ .idle
  closed : s'.terminated.isSet = true → s'.life = .closed

variable {p} {s s' : Session (Log × ω)}

theorem Opens.ofShuts {u : Session (Log × ω)} (h : Shuts u s') (hshut : Shut u)
    (hfirst : Idles [] s u) : Opens s s' := by
  obtain ⟨hshut', log, hidle, hafter⟩ := h hshut
  exact ⟨⟨log, hfirst.append hidle, hafter⟩, hshut'.tasks, hshut'.registry, by simp [hshut'.life],
    fun _ => hshut'.life⟩

theorem close_opens (hlife : s.life = .idle) (htasks : s.tasks = [])
    (hregistry : s.registry = ⟨[], []⟩) {x : Except Stop Unit}
    (hrun : close p.logged s = (x, s')) : Opens s s' := by
  have hclose := (shut_growth p).grows (shuts_closeHere p) { s with life := .closed }
  unfold close at hrun
  rw [get_bind_apply, hlife] at hrun
  change closeHere p.logged { s with life := .closed } = _ at hrun
  rw [hrun] at hclose
  exact .ofShuts hclose ⟨rfl, htasks, hregistry⟩ ⟨by simp [Session.log], by simp, rfl, rfl⟩

theorem dropHandle_opens (htasks : s.tasks = []) (hregistry : s.registry = ⟨[], []⟩)
    {x : Except Stop Unit} (hrun : dropHandle p.logged s = (x, s')) :
    Opens s s' ∨ s' = s.giveUpHandle := by
  have hgiven := giveUpHandle_undisturbed s
  have hfiled := giveUpHandle_filed s
  rcases dropHandle_cases p.logged hrun with ⟨-, -, hrun⟩ | ⟨-, -, hrun⟩
  · have hclose := (shut_growth p).grows (shuts_closeHere p)
      { s.giveUpHandle with life := .closed }
    rw [hrun] at hclose
    refine .inl (.ofShuts hclose
      ⟨rfl, hgiven.tasks.trans htasks, hgiven.registry.trans hregistry⟩ ?_)
    exact ⟨by simp [Session.log, hfiled.outside], by simp, by simp [hfiled.active],
      by simp [hfiled.active]⟩
  · exact .inr hrun

theorem ensuring_modify {m : Run (Log × ω) Unit} {f : Session (Log × ω) → Session (Log × ω)}
    {x y : Except Stop Unit} {s₁ : Session (Log × ω)} (hm : m s = (y, s₁))
    (h : ensuring m (modify f) s = (x, s')) : s' = s₁ ∧ y = .error .hang ∨ s' = f s₁ := by
  unfold ensuring at h
  rw [hm] at h
  rcases y with (_ | _ | _) | _ <;> cases h
  · exact .inr rfl
  · exact .inr rfl
  · exact .inl ⟨rfl, rfl⟩
  · exact .inr rfl

theorem start_opens (hlife : s.life = .idle) (hthreaded : s.settings.threaded = true)
    (htasks : s.tasks = []) (hregistry : s.registry = ⟨[], []⟩)
    (hunsignalled : s.terminated.isSet = false) {x : Except Stop Unit}
    (hrun : start p.logged s = (x, s')) : Opens s s' := by
  have hlaunch := (shut_growth p).grows (Service.shuts_launch p)
    { s with life := .closed, locked := true }
  have hfirst : Idles [] s { s with life := .closed, locked := true } :=
    ⟨by simp [Session.log], by simp, rfl, rfl⟩
  rw [start_idle _ hlife, hthreaded] at hrun
  change ensuring (enter p.logged true) (modify fun s => { s with locked := false })
    { s with life := .closed, locked := true } = _ at hrun
  have hshut : Shut { s with life := .closed, locked := true } := ⟨rfl, htasks, hregistry⟩
  -- a start that fails leaves the session shut, locked or not
  have hfails : ∀ {v : Session (Log × ω)} {b : Bool},
      Shuts { s with life := .closed, locked := true } v → s' = { v with locked := b } →
      Opens s s' := by
    rintro v b hv rfl
    exact .ofShuts (hv.trans (shuts_of_same rfl rfl rfl rfl rfl)) hshut hfirst
  rcases hl : Service.launch p.logged { s with life := .closed, locked := true } with
    ⟨stop | e | _, v⟩ <;> rw [hl] at hlaunch
  · have henter : enter p.logged true { s with life := .closed, locked := true } =
        (.error stop, v) := by
      rw [enter, if_pos rfl, bind_apply, hl]
    rcases ensuring_modify henter hrun with ⟨rfl, -⟩ | rfl
    · exact hfails (b := s'.locked) hlaunch rfl
    · exact hfails hlaunch rfl
  · have henter : enter p.logged true { s with life := .closed, locked := true } =
        (.error (.error e), v) := by
      rw [enter, if_pos rfl, bind_apply, hl]
      rfl
    rcases ensuring_modify henter hrun with ⟨rfl, -⟩ | rfl
    · exact hfails (b := s'.locked) hlaunch rfl
    · exact hfails hlaunch rfl
  · have henter : enter p.logged true { s with life := .closed, locked := true } =
        (.ok (), { v with life := .threaded }) := by
      rw [enter, if_pos rfl, bind_apply, hl]
      rfl
    rcases ensuring_modify henter hrun with ⟨-, hhang⟩ | rfl
    · cases hhang
    · obtain ⟨hv, log, hidle, hafter⟩ := hlaunch hshut
      have hstill := Service.launch_unsignalled p hl
      change v.terminated = s.terminated at hstill
      have hall := hfirst.append hidle
      refine ⟨⟨log, ⟨hall.log, hall.calls, hall.work, hall.courier⟩, hafter⟩, hv.tasks,
        hv.registry, by simp, ?_⟩
      simp [hstill, hunsignalled]

end Session
end DatabaseSession
