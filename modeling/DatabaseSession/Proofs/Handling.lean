import DatabaseSession.Proofs.Ending
import DatabaseSession.Proofs.Release
import DatabaseSession.Proofs.Tally

namespace DatabaseSession

open Run Session

variable {ω : Type}

namespace Duty

/-- Telling the task observers. -/
def Announces (phase : Milestone) (id : Option String) (d : Duty) : Prop :=
  ∃ i, d = .milestone i phase id

/-- Done for this task: its work, and its events handed to its own sink. -/
def WorksFor (t : Task) (d : Duty) : Prop :=
  d.isTaskwork = true ∨ ∃ e : Event, d = .deliver t.courier.sink e ∧ e.requestId = t.requestId

/-- Done for this task, its observers included. -/
def Serves (t : Task) (d : Duty) : Prop := d.WorksFor t ∨ ∃ phase, d.Announces phase t.requestId

theorem WorksFor.not_told {t : Task} {d : Duty} (h : d.WorksFor t) (i : Nat) :
    d.told? i = none := by
  rcases h with h | ⟨e, rfl, -⟩
  · cases d <;>
      simp_all [isTaskwork, isConnecting, isReading, isSchema, isErrand, told?]
  · rfl

theorem Serves.addressed {t : Task} {sink : Sink} {e : Event} (h : (deliver sink e).Serves t) :
    sink = t.courier.sink ∧ e.requestId = t.requestId := by
  rcases h with (h | ⟨e', heq, hid⟩) | ⟨phase, i, h⟩
  · simp [isTaskwork, isConnecting, isReading, isSchema, isErrand] at h
  · cases heq
    exact ⟨rfl, hid⟩
  · cases h

end Duty

namespace Log

theorem milestones_of_worksFor {t : Task} {log : Log} (h : ∀ d ∈ calls log, d.WorksFor t)
    (i : Nat) : milestones i log = [] :=
  List.filterMap_eq_nil_iff.mpr fun d hd => (h d hd).not_told i

theorem told_by_all (n : Nat) (phase : Milestone) (id : Option String) (i : Nat) :
    ((List.range n).map fun j => Duty.milestone j phase id).filterMap (Duty.told? i) =
      if i < n then [(phase, id)] else [] := by
  induction n with
  | zero => rfl
  | succ n ih =>
    rw [List.range_succ, List.map_append, List.filterMap_append, ih]
    by_cases hlast : n = i
    · simp [Duty.told?, hlast]
    · have hiff : i < n + 1 ↔ i < n := by omega
      simp [Duty.told?, hlast, hiff]

theorem milestones_of_calls {log : Log} {n : Nat} {phase : Milestone} {id : Option String}
    (h : calls log = (List.range n).map fun i => .milestone i phase id) {i : Nat} (hi : i < n) :
    milestones i log = [(phase, id)] := by
  rw [milestones, h, told_by_all, if_pos hi]

theorem mem_calls_of_deliveries {log : Log} {sink : Sink} {e : Event}
    (h : (sink, e) ∈ deliveries log) : .deliver sink e ∈ calls log := by
  obtain ⟨entry, hmem, hentry⟩ := List.mem_filterMap.mp h
  refine List.mem_filterMap.mpr ⟨entry, hmem, ?_⟩
  split at hentry <;> simp_all

end Log

namespace Session

theorem taken_tallied {s s' : Session ω} (hs : Tallied s) {t : Task}
    (htasks : s.tasks = t :: s'.tasks)
    (hregistry : s'.registry = (s.registry.beginOptional t.requestId).2)
    (hreceiving : s'.mailbox.receiving = s.mailbox.receiving) :
    Tallied s' ∧ s.waitlist.next (.taken t (s.registry.beginOptional t.requestId).1) =
      some s'.waitlist := by
  have hattended : s'.mailbox.receiving = false → s'.tasks = [] := by
    intro hrecv
    have hnone := hs.attended (hreceiving.symm.trans hrecv)
    simp [htasks] at hnone
  cases hid : t.requestId with
  | none =>
    rw [hid] at hregistry
    have hsame : s'.registry = s.registry := hregistry
    refine ⟨⟨?_, ?_, hattended⟩, ?_⟩
    · rw [hsame]
      simpa [htasks, hid] using hs.waiting
    · rw [hsame]
      exact hs.marked
    · simp [Waitlist.next, waitlist, htasks, hsame, hid, Waitlist.isMarked, Waitlist.unmark,
        Registry.beginOptional]
  -- the id goes once, and its mark with it, though more tasks may wait under it
  | some id =>
    rw [hid] at hregistry
    have hwaiting : s'.registry.waiting = s.registry.waiting.erase id := by rw [hregistry]; rfl
    have hmarked : s'.registry.marked = s.registry.marked.filter (· ≠ id) := by
      rw [hregistry]; rfl
    refine ⟨⟨?_, ?_, hattended⟩, ?_⟩
    · have hperm : s.registry.waiting.Perm (id :: s'.tasks.filterMap Task.requestId) := by
        simpa [htasks, hid] using hs.waiting
      rw [hwaiting]
      simpa using hperm.erase id
    · intro x hx
      rw [hmarked, List.mem_filter] at hx
      have hne : x ≠ id := by simpa using hx.2
      rw [hwaiting]
      exact (List.mem_erase_of_ne hne).mpr (hs.marked x hx.1)
    · simp [Waitlist.next, waitlist, htasks, hmarked, hid, Waitlist.isMarked, Waitlist.unmark,
        Registry.beginOptional, Registry.begin, Registry.isCancelled]

/-- The task in the course of its run: the same work, with events to the same sink, under the same
id. -/
structure InCourse (t u : Task) : Prop where
  work : u.work = t.work
  sink : u.courier.sink = t.courier.sink
  requestId : u.courier.requestId = t.requestId

theorem inCourse_settles (t : Task) : Settles (InCourse t) := by
  intro u v hwork hcourier h
  exact ⟨hwork.trans h.work, by rw [hcourier]; exact h.sink, by rw [hcourier]; exact h.requestId⟩

theorem pursues_emits (p : Parties ω) (t : Task) :
    Emits p (Pursues (Duty.WorksFor t) (InCourse t)) := by
  have hgrowth := pursues_growth (P := Duty.WorksFor t) p (inCourse_settles t)
  intro state message data error s hs hact
  cases hterm : s.active.courier.terminal with
  | some st =>
    rw [Task.emit_closed _ _ _ _ _ s (by simp [hterm])]
    exact hgrowth.refl s hs hact
  | none =>
    rw [Task.emit_open _ _ _ _ _ s hterm]
    let e : Event := ⟨s.active.courier.requestId, state, message, error, data⟩
    have hbooked : Proceeds (Duty.WorksFor t) [] s (Task.book s e) :=
      .silent hs rfl ⟨rfl, rfl, rfl, rfl, .inl rfl⟩
    have hdeliver : (Duty.deliver s.active.courier.sink e).WorksFor t := by
      rw [hact.sink]
      exact .inr ⟨e, rfl, hact.requestId⟩
    obtain ⟨hact', new, hnew⟩ := hgrowth.grows (hgrowth.hand hdeliver) (Task.book s e)
      hbooked.tallied ⟨hact.work, hact.sink, hact.requestId⟩
    exact ⟨hact', _, hbooked.append hnew⟩

end Session

namespace Task

theorem announce_told (p : Parties ω) (observers : List (Milestone → Option String → Play ω Unit))
    (shift : Nat) (phase : Milestone) (id : Option String) {s s' : Session (Log × ω)}
    (h : ((observers.mapIdx fun i observe m id =>
        (observe m id).logged (.milestone (i + shift) m id)).forM fun observe =>
      shielded (party p.logged (observe phase id))) s = (.ok (), s')) :
    ∃ new, s'.log = s.log ++ new ∧
      Log.calls new =
        (List.range observers.length).map fun i => .milestone (i + shift) phase id := by
  induction observers generalizing shift s with
  | nil =>
    cases h
    exact ⟨[], by simp, rfl⟩
  | cons observe observers ih =>
    rw [List.mapIdx_cons] at h
    change ((shielded _) >>= fun _ => List.forM _ _) s = _ at h
    rw [bind_apply] at h
    obtain ⟨first, hfirst⟩ := party_logged p (.milestone (0 + shift) phase id) (observe phase id) s
    have hsnd : (shielded (party p.logged ((observe phase id).logged
        (.milestone (0 + shift) phase id))) s).2 =
        (party p.logged ((observe phase id).logged (.milestone (0 + shift) phase id)) s).2 := by
      rw [shielded_apply]
      rcases party p.logged ((observe phase id).logged (.milestone (0 + shift) phase id)) s with
        ⟨(_ | _ | _) | _, s₁⟩ <;> rfl
    rcases hr : shielded (party p.logged ((observe phase id).logged
      (.milestone (0 + shift) phase id))) s with ⟨stop | _, s₁⟩ <;> rw [hr] at h hsnd
    · cases h
    · -- observers are logged by their place in line
      have hshift : ∀ i, i + 1 + shift = i + (shift + 1) := fun i => by omega
      simp only [hshift] at h
      obtain ⟨rest, hlog, hcalls⟩ := ih (shift + 1) h
      have hlog₁ : s₁.log = s.log ++ first := by
        rw [← hfirst.log, ← hsnd]
      refine ⟨first ++ rest, by rw [hlog, hlog₁, List.append_assoc], ?_⟩
      rw [Log.calls_append, hfirst.calls, hcalls, List.length_cons, List.range_succ_eq_map,
        List.map_cons, List.map_map]
      simp only [Function.comp_def, Nat.succ_eq_add_one, hshift]
      rfl

/-- The report is the only thing in a task's run that can panic, and only a custom one's does. -/
theorem account_panics (p : Parties ω) {s s' : Session (Log × ω)} {q : Panic}
    (h : account p.logged s = (.error (.panic q), s')) :
    ∃ key new, s.active.work = .custom key ∧ s'.log = s.log ++ new ∧
      .returned (.reportErrand key) (.error (.panic q)) ∈ new := by
  unfold account at h
  rw [bind_apply, onPanic] at h
  rcases hrep : report p.logged s with ⟨(e | q' | _) | stats, s₁⟩ <;> rw [hrep] at h <;> cases h
  unfold report at hrep
  rw [get_bind_apply] at hrep
  cases hw : s.active.work with
  | query _ | schema _ =>
    rw [hw] at hrep
    cases hrep
  | custom key =>
    rw [hw] at hrep
    change valueOr {} (party p.logged ((p.custom key).stats.logged (.reportErrand key))) s = _
      at hrep
    obtain ⟨new, ht⟩ := party_logged p (.reportErrand key) (p.custom key).stats s
    rw [valueOr_apply] at hrep
    rcases hr : party p.logged ((p.custom key).stats.logged (.reportErrand key)) s with
      ⟨(_ | _ | _) | _, s₂⟩ <;> rw [hr] at hrep ht <;> cases hrep
    exact ⟨key, new, rfl, ht.log, ht.panicked⟩

theorem stops_undertake (p : Parties ω) (cancelled : Bool) :
    Stops (· = .hang) (undertake p cancelled) := by
  refine stops_bind (stops_guarded ?_) fun r => ?_
  · cases cancelled
    · exact stops_execute p
    · exact stops_cancel p
  · cases r with
    | ok _ => exact stops_pure ()
    | error q => exact stops_shielded _

structure Carried (p : Parties ω) (t : Task) (x : Except Stop Unit) (log : Log) : Prop where
  /-- Every observer is told of the start, and of the finish unless the task's report panics. -/
  told : x ≠ .error .hang → ∀ i < p.taskObservers.length,
    Log.milestones i log = (.started, t.requestId) ::
      if x.isOk then [(.finished, t.requestId)] else []
  blamed : ∀ q, x = .error (.panic q) → ∃ key, t.work = .custom key ∧
    .returned (.reportErrand key) (.error (.panic q)) ∈ log
  unfailing : ∀ e, x ≠ .error (.error e)

theorem Carried.ofHang (p : Parties ω) (t : Task) (log : Log) : Carried p t (.error .hang) log :=
  ⟨fun h => absurd rfl h, by simp, by simp⟩

theorem announce_proceeds (p : Parties ω) (t : Task) (phase : Milestone) {s : Session (Log × ω)}
    (hs : Tallied s) (hact : InCourse t s.active) {x : Except Stop Unit} {s' : Session (Log × ω)}
    (h : announce p.logged phase t.requestId s = (x, s')) :
    InCourse t s'.active ∧ ∃ new, Proceeds (Duty.Announces phase t.requestId) new s s' ∧
      (x = .error .hang ∨ x = .ok () ∧
        ∀ i < p.taskObservers.length, Log.milestones i new = [(phase, t.requestId)]) := by
  have hgrowth := pursues_growth (P := Duty.Announces phase t.requestId) p (inCourse_settles t)
  have hfollows : Follows hgrowth.course (announce p.logged phase t.requestId) :=
    follows_announce fun i => hgrowth.permits ⟨i, rfl⟩
  obtain ⟨hact', new, hnew⟩ := hgrowth.grows hfollows s hs hact
  rw [h] at hact' hnew
  refine ⟨hact', new, hnew, ?_⟩
  have hstop : Stops (· = .hang) (announce p.logged phase t.requestId) :=
    stops_forM _ fun _ => stops_shielded _
  rcases x with stop | _
  · left
    rw [hstop s stop (by rw [h])]
  · right
    obtain ⟨new', hlog, hcalls⟩ := announce_told p p.taskObservers 0 phase t.requestId h
    obtain rfl : new = new' := List.append_cancel_left (hnew.log.symm.trans hlog)
    exact ⟨rfl, fun i hi => Log.milestones_of_calls hcalls hi⟩

/-- A run between its two announcements. -/
def toil (p : Parties ω) (cancelled : Bool) : Run ω Unit := do
  modify holdStats
  undertake p cancelled
  account p

theorem perform_eq_toil (p : Parties ω) (t : Task) (s : Session ω) :
    perform p t s = (do
      announce p .started t.requestId
      toil p (marked t s)
      announce p .finished t.requestId) (takeUp t s) := by
  rw [perform_eq]
  simp only [toil, bind_assoc]

theorem toil_proceeds (p : Parties ω) (t : Task) (cancelled : Bool) {s : Session (Log × ω)}
    (hs : Tallied s) (hact : InCourse t s.active) {x : Except Stop Unit} {s' : Session (Log × ω)}
    (h : toil p.logged cancelled s = (x, s')) :
    InCourse t s'.active ∧ ∃ new, Proceeds (Duty.WorksFor t) new s s' ∧
      (x = .ok () ∨ x = .error .hang ∨ ∃ q key, x = .error (.panic q) ∧ t.work = .custom key ∧
        .returned (.reportErrand key) (.error (.panic q)) ∈ new) := by
  have hgrowth := pursues_growth (P := Duty.WorksFor t) p (inCourse_settles t)
  have htaskwork : ∀ d : Duty, d.isTaskwork = true → d.WorksFor t := fun d hd => .inl hd
  -- the statistics are held, the work is done, and the task gives its account
  have hheld : Proceeds (Duty.WorksFor t) [] s (holdStats s) :=
    .silent hs rfl ⟨rfl, rfl, rfl, rfl, .inl rfl⟩
  obtain ⟨hact₁, new₁, hnew₁⟩ := hgrowth.grows
    (grows_undertake hgrowth (pursues_emits p t) htaskwork cancelled) (holdStats s) hheld.tallied
    hact
  have hfirst := hheld.append hnew₁
  rw [toil, bind_apply, modify_apply] at h
  dsimp only at h
  rw [bind_apply] at h
  rcases hr₁ : undertake p.logged cancelled (holdStats s) with ⟨stop | _, s₁⟩ <;>
    rw [hr₁] at h hact₁ hfirst
  · obtain rfl : stop = .hang := stops_undertake p.logged _ _ _ (by rw [hr₁])
    cases h
    exact ⟨hact₁, _, hfirst, .inr (.inl rfl)⟩
  obtain ⟨hact₂, new₂, hnew₂⟩ := hgrowth.grows (grows_account hgrowth htaskwork) s₁
    hfirst.tallied hact₁
  have hsecond := hfirst.append hnew₂
  dsimp only at h
  rw [h] at hact₂ hnew₂ hsecond
  refine ⟨hact₂, _, hsecond, ?_⟩
  rcases x with (e | q | _) | _
  · have hunfailing : Stops Unfailing (account p.logged) :=
      stops_bind (stops_onPanic (unfailing_hang rfl) (stops_report p.logged))
        fun _ => stops_modify _
    exact absurd rfl (hunfailing s₁ _ (by rw [h]) e)
  · -- the work is still that of the task, so it is its own report that panicked
    obtain ⟨key, new, hwork, hlog, hmem⟩ := account_panics p h
    obtain rfl : new₂ = new := List.append_cancel_left (hnew₂.log.symm.trans hlog)
    exact .inr (.inr ⟨q, key, rfl, hact₁.work.symm.trans hwork, List.mem_append_right _ hmem⟩)
  · exact .inr (.inl rfl)
  · exact .inl rfl

/-- A task that is run: what its run leaves, and what the log tells of it. -/
theorem perform_proceeds (p : Parties ω) (t : Task) {s : Session (Log × ω)}
    (hs : Tallied (takeUp t s)) {x : Except Stop Unit} {s' : Session (Log × ω)}
    (h : perform p.logged t s = (x, s')) :
    ∃ log, Proceeds (Duty.Serves t) log (takeUp t s) s' ∧ Carried p t x log := by
  have hannounces : ∀ {phase new a b},
      Proceeds (ω := ω) (Duty.Announces phase t.requestId) new a b →
      Proceeds (Duty.Serves t) new a b := fun h => h.mono fun d hd => .inr ⟨_, hd⟩
  rw [perform_eq_toil, bind_apply] at h
  rcases hr₁ : announce p.logged .started t.requestId (takeUp t s) with ⟨x₁, s₁⟩
  rw [hr₁] at h
  obtain ⟨hact₁, new₁, hnew₁, rfl | ⟨rfl, htold₁⟩⟩ :=
    announce_proceeds p t .started hs ⟨rfl, rfl, rfl⟩ hr₁
  · cases h
    exact ⟨_, hannounces hnew₁, .ofHang p t _⟩
  dsimp only at h
  rw [bind_apply] at h
  rcases hr₂ : toil p.logged (marked t s) s₁ with ⟨x₂, s₂⟩
  rw [hr₂] at h
  obtain ⟨hact₂, new₂, hnew₂, hx₂⟩ := toil_proceeds p t (marked t s) hnew₁.tallied hact₁ hr₂
  have hsecond := (hannounces hnew₁).append (hnew₂.mono fun d hd => .inl hd)
  -- between the two announcements no observer is told of anything
  have hquiet : ∀ i, Log.milestones i new₂ = [] := Log.milestones_of_worksFor hnew₂.calls
  rcases hx₂ with rfl | rfl | ⟨q, key, rfl, hwork, hmem⟩
  · rcases hr₃ : announce p.logged .finished t.requestId s₂ with ⟨x₃, s₃⟩
    dsimp only at h
    rw [hr₃] at h
    cases h
    obtain ⟨-, new₃, hnew₃, rfl | ⟨rfl, htold₃⟩⟩ :=
      announce_proceeds p t .finished hnew₂.tallied hact₂ hr₃
    · exact ⟨_, hsecond.append (hannounces hnew₃), .ofHang p t _⟩
    · refine ⟨_, hsecond.append (hannounces hnew₃), ?_, by simp, by simp⟩
      intro _ i hi
      rw [Log.milestones_append, Log.milestones_append, htold₁ i hi, hquiet, htold₃ i hi]
      rfl
  · cases h
    exact ⟨_, hsecond, .ofHang p t _⟩
  · cases h
    refine ⟨_, hsecond, ?_, ?_, by simp⟩
    · intro _ i hi
      rw [Log.milestones_append, htold₁ i hi, hquiet]
      rfl
    · rintro q' heq
      cases heq
      exact ⟨key, hwork, List.mem_append_right _ hmem⟩

end Task

namespace Service

def putAside (t : Task) (s : Session ω) : Session ω :=
  { s with registry := (s.registry.beginOptional t.requestId).2, active := t }

theorem dropTask_undisturbed (t : Task) (s : Session ω) : Undisturbed s (dropTask t s) := by
  unfold dropTask
  split
  · exact giveUpHandle_undisturbed s
  · exact .refl s

theorem dropTask_proceeds {P : Duty → Prop} (t : Task) {s : Session (Log × ω)} (hs : Tallied s) :
    Proceeds P [] s (dropTask t s) :=
  .silent hs (by rw [Session.log, (dropTask_filed t s).outside, Session.log])
    (dropTask_undisturbed t s)

/-- A task that is cancelled for still being in the queue. Nobody else hears of it. -/
theorem discardTask_proceeds (p : Parties ω) (t : Task) {s : Session (Log × ω)}
    (hs : Tallied (putAside t s)) {x : Except Stop Unit} {s' : Session (Log × ω)}
    (h : discardTask p.logged t s = (x, s')) :
    (x = .ok () ∨ x = .error .hang) ∧
      ∃ log, Proceeds (Duty.WorksFor t) log (putAside t s) s' := by
  have hgrowth := pursues_growth (P := Duty.WorksFor t) p (inCourse_settles t)
  have hcancel : Follows hgrowth.course (Task.cancel p.logged) :=
    Task.grows_cancel hgrowth (pursues_emits p t) fun _ => .inl rfl
  obtain ⟨-, new, hnew⟩ :=
    hgrowth.grows (follows_shielded hcancel) (putAside t s) hs ⟨rfl, rfl, rfl⟩
  unfold discardTask at h
  rw [bind_apply, modify_apply] at h
  change (shielded (Task.cancel p.logged) >>= fun _ => modify (dropTask t)) (putAside t s) = _ at h
  rw [bind_apply] at h
  rcases hr : shielded (Task.cancel p.logged) (putAside t s) with ⟨stop | _, s₁⟩ <;>
    rw [hr] at h hnew
  · obtain rfl : stop = .hang := stops_shielded _ _ _ (by rw [hr])
    cases h
    exact ⟨.inr rfl, new, hnew⟩
  · cases h
    exact ⟨.inl rfl, _, hnew.append (dropTask_proceeds t hnew.tallied)⟩

end Service
end DatabaseSession
