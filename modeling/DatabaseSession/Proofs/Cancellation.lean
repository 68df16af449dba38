import DatabaseSession.Proofs.Interleaving
import DatabaseSession.Rehearsal.Cast

namespace DatabaseSession

open Run Session

variable {ω : Type}

/-- Telling somebody of a task, which asks nothing of the backend. -/
def Duty.isTelling : Duty → Bool
  | .milestone _ _ _ | .deliver _ _ => true
  | _ => false

namespace Session

/-- Between two states somebody was told something, and the active task's work stayed. -/
structure Telling (s s' : Session (Log × ω)) : Prop where
  log : ∃ new, s'.log = s.log ++ new ∧ ∀ d ∈ Log.calls new, d.isTelling = true
  work : s'.active.work = s.active.work

theorem Telling.trans {a b c : Session (Log × ω)} (h : Telling a b) (h' : Telling b c) :
    Telling a c := by
  obtain ⟨new, hlog, hcalls⟩ := h.log
  obtain ⟨new', hlog', hcalls'⟩ := h'.log
  refine ⟨⟨new ++ new', by rw [hlog', hlog, List.append_assoc], ?_⟩, h'.work.trans h.work⟩
  intro d hd
  rw [Log.calls_append] at hd
  exact (List.mem_append.mp hd).elim (hcalls d) (hcalls' d)

theorem Telling.silent {s s' : Session (Log × ω)} (hout : s'.outside = s.outside)
    (hwork : s'.active.work = s.active.work) : Telling s s' :=
  ⟨⟨[], by simp [Session.log, hout], by simp⟩, hwork⟩

theorem Telling.ofInterlude {asides : Log} {s s' : Session (Log × ω)} (h : Interlude asides s s') :
    Telling s s' :=
  ⟨⟨asides, h.log, by simp [Log.calls_asides h.aside]⟩, by rw [h.active]⟩

theorem Telling.bind {α β : Type} {m : Run (Log × ω) α} {f : α → Run (Log × ω) β}
    {s : Session (Log × ω)} (hm : Telling s (m s).2)
    (hf : ∀ a s₁, m s = (.ok a, s₁) → Telling s₁ (f a s₁).2) : Telling s ((m >>= f) s).2 := by
  rw [bind_apply]
  rcases hr : m s with ⟨stop | a, s₁⟩ <;> rw [hr] at hm
  · exact hm
  · exact hm.trans (hf a s₁ hr)

theorem telling_growth (p : Parties ω) : Growth p (fun d => d.isTelling = true) Telling where
  trans := .trans
  unmoved h := .silent h.outside h.work
  elsewhere s w := .ofInterlude (.ofOutside s w)
  called s d hd := ⟨⟨[.called d], rfl, by simpa using hd⟩, rfl⟩
  returned s d x := ⟨⟨[.returned d x], rfl, by simp⟩, rfl⟩
  asked ha := by
    obtain ⟨asides, hi⟩ := answer_interlude p _ _ _ _ _ ha
    exact .ofInterlude hi
  unanswered ha := .ofInterlude (unanswered_interlude p _ _ _ _ ha)

theorem telling_emits (p : Parties ω) : Emits p Telling :=
  (telling_growth p).emits (fun _ _ => .silent rfl rfl) fun _ _ => rfl

end Session

namespace Task

structure Fresh (t : Task) : Prop where
  builtIn : t.work.isBuiltIn = true
  unended : t.courier.terminal = none
  unfailed : t.stats.lastError = none
  uncancelled : t.stats.cancelled = false

variable (p : Parties ω)

theorem undertake_tells {s : Session (Log × ω)} (h : s.active.work.isBuiltIn = true) :
    Telling s (undertake p.logged true s).2 := by
  have hreport : Telling s (reportCancelled s) := .silent rfl rfl
  have hsent := hreport.trans (telling_emits p .cancelled none none none (reportCancelled s))
  rw [undertake_apply, if_pos rfl, cancel_builtIn _ s h]
  rcases hr : emit p.logged .cancelled none none none (reportCancelled s) with
    ⟨(e | q | _) | _, s₁⟩ <;> rw [hr] at hsent
  case error.panic =>
    -- a sink that panics has the failure reported, to the same sink
    have hbuiltIn : s₁.active.work.isBuiltIn = true := by
      rw [hsent.work]
      exact h
    have hfail := (telling_growth p).grows
      (grows_endInError (telling_growth p) (telling_emits p) (panicError q)) s₁
    dsimp only
    rw [shielded_apply, fail_builtIn _ _ s₁ hbuiltIn]
    rcases hend : endInError p.logged (panicError q) s₁ with ⟨(_ | _ | _) | _, s₂⟩ <;>
      rw [hend] at hfail <;> exact hsent.trans hfail
  all_goals exact hsent

theorem toil_tells {s : Session (Log × ω)} (h : s.active.work.isBuiltIn = true) :
    Telling s (toil p.logged true s).2 := by
  refine Telling.bind (.silent rfl rfl) fun _ s₁ hheld => ?_
  cases hheld
  refine Telling.bind (undertake_tells p h) fun _ s₂ hdone => ?_
  have hbuiltIn : s₂.active.work.isBuiltIn = true := by
    have hwork := (undertake_tells p (s := holdStats s) h).work
    rw [hdone] at hwork
    rw [hwork]
    exact h
  rw [account_builtIn _ s₂ hbuiltIn]
  exact .silent rfl rfl

theorem perform_tells (t : Task) {s : Session (Log × ω)} (hwork : t.work.isBuiltIn = true)
    (hmarked : marked t s = true) : Telling (takeUp t s) (perform p.logged t s).2 := by
  have hannounce : ∀ phase s, Telling s (announce p.logged phase t.requestId s).2 := fun phase =>
    (telling_growth p).grows (follows_announce fun _ => (telling_growth p).permits rfl)
  rw [perform_eq_toil, hmarked]
  refine Telling.bind (hannounce .started _) fun _ s₁ hstarted => ?_
  have hbuiltIn : s₁.active.work.isBuiltIn = true := by
    have hsame := (hannounce .started (takeUp t s)).work
    rw [hstarted] at hsame
    rw [hsame]
    exact hwork
  exact Telling.bind (toil_tells p hbuiltIn) fun _ s₂ _ => hannounce .finished s₂

theorem toil_whole {cancelled : Bool} {s s' : Session (Log × ω)} {x : Except Stop Unit}
    (hwork : s.active.work.isBuiltIn = true) (hopen : s.active.courier.terminal = none)
    (h : toil p.logged cancelled s = (x, s')) (hx : x ≠ .error .hang) :
    x = .ok () ∧ ∃ new events closing, Sends new events s s' ∧ Reports events s s' ∧
      Whole s.active.courier.requestId cancelled events closing := by
  obtain ⟨new₁, hs₁, hr₁⟩ := exists_of_never (serving_never p s (holdStats s) rfl rfl rfl).1
  rw [toil, bind_apply, modify_apply] at h
  dsimp only at h
  rw [bind_apply] at h
  rcases undertake_completes p cancelled (holdStats s) hwork hopen with
    ⟨s₂, hdone, -⟩ | ⟨s₂, hdone, -, new₂, events, closing, hs₂, hr₂, hwhole⟩ <;> rw [hdone] at h
  · cases h
    exact absurd rfl hx
  · have hwork₂ : s₂.active.work.isBuiltIn = true := by
      rw [hs₂.work]
      exact hwork
    dsimp only at h
    rw [account_builtIn _ s₂ hwork₂] at h
    cases h
    obtain ⟨new₃, hs₃, hr₃⟩ := exists_of_never (serving_never p s₂ { s₂ with
      stats := LastRunStats.ofRun s₂.active.stats, statsHeld := false } rfl rfl rfl).1
    have hs := (hs₁.append hs₂).append hs₃
    have hr := (hr₁.append hr₂).append hr₃
    rw [List.nil_append, List.append_nil] at hs hr
    exact ⟨rfl, _, events, closing, hs, hr, hwhole⟩

/-- A fresh task that comes back has sent all its events: that it is cancelled, or those of a
run. -/
theorem perform_whole {t : Task} (ht : Fresh t) {s s' : Session (Log × ω)} {x : Except Stop Unit}
    (h : perform p.logged t s = (x, s')) (hx : x ≠ .error .hang) :
    ∃ new events closing, s'.log = s.log ++ new ∧
      Ended t (marked t s) events closing new s s' := by
  rw [perform_eq_toil, bind_apply] at h
  rcases announce_completes p .started t.requestId (takeUp t s) with
    ⟨s₁, hstarted, -⟩ | ⟨s₁, hstarted, hfirst⟩ <;> rw [hstarted] at h
  · cases h
    exact absurd rfl hx
  -- observers send nothing, so the events are those of the work between the two announcements
  obtain ⟨new₁, hs₁, hr₁⟩ := exists_of_never hfirst.1
  have hwork₁ : s₁.active.work.isBuiltIn = true := by
    rw [hs₁.work]
    exact ht.builtIn
  have hopen₁ : s₁.active.courier.terminal = none := hs₁.states.eq_of_nil.trans ht.unended
  have hid₁ : s₁.active.courier.requestId = t.requestId := hs₁.requestId
  dsimp only at h
  rw [bind_apply] at h
  rcases htoil : toil p.logged (marked t s) s₁ with ⟨y, s₂⟩
  rw [htoil] at h
  have hy : y ≠ .error .hang := by
    rintro rfl
    cases h
    exact hx rfl
  obtain ⟨rfl, new₂, events, closing, hs₂, hr₂, hwhole⟩ := toil_whole p hwork₁ hopen₁ htoil hy
  rw [hid₁] at hwhole
  dsimp only at h
  rcases announce_completes p .finished t.requestId s₂ with
    ⟨s₃, hfinished, -⟩ | ⟨s₃, hfinished, hlast⟩ <;> rw [hfinished] at h <;> cases h
  · exact absurd rfl hx
  obtain ⟨new₃, hs₃, hr₃⟩ := exists_of_never hlast.1
  have hs := (hs₁.append hs₂).append hs₃
  have hr := (hr₁.append hr₂).append hr₃
  rw [List.nil_append, List.append_nil] at hs hr
  exact ⟨_, events, closing, hs.log,
    ended_of_sends ht.unended ht.unfailed ht.uncancelled hs hr hwhole⟩

end Task

namespace Session

variable {p : Parties ω}

theorem registry_of_refused {s s' : Session ω} (hs : Tallied s) {thread : Thread} {call : Call}
    {a : Answer} (hcall : call.submits = true) (ha : answer p thread call s = (some a, s'))
    (hrefused : (Entry.asked thread call a).accepted? = none) : s'.registry = s.registry := by
  have hsubmission : ∀ {u : Session ω} {t : Task} {wrap : Except Error Unit → Answer}, Tallied u →
      u.registry = s.registry → Submits t call wrap → u.answerSubmission t wrap = (some a, s') →
      s'.registry = s.registry := by
    intro u t wrap hu hsame hsub hanswer
    rcases answerSubmission_cases u t wrap with h | ⟨e, h⟩ | ⟨-, h⟩ <;> rw [h] at hanswer
    · cases hanswer
    · cases hanswer
      exact hsame
    · cases hrecv : u.mailbox.receiving with
      | true =>
        rw [enqueue_attended u t hrecv] at hanswer
        cases hanswer
        rw [hsub.well thread] at hrefused
        cases hrefused
      | false =>
        rw [enqueue_unattended hu t hrecv] at hanswer
        cases hanswer
        exact hsame
  cases call with
  | execute t =>
    exact hsubmission (u := { s with killed := false }) (hs.of_same rfl rfl rfl) rfl
      (submits_execute t) ha
  | submit t => exact hsubmission hs rfl (submits_submit t) ha
  | assign t => exact hsubmission hs rfl (submits_assign t) ha
  | _ => simp [Call.submits] at hcall

theorem answer_cancel {s : Session ω} (hs : Tallied s) (thread : Thread) (id : String) :
    (answer p thread (.cancel id) s).1 =
      some (.flag (decide (∃ t ∈ s.tasks, t.requestId = some id))) := by
  change some (Answer.flag (s.registry.cancel id).1) = _
  rw [Registry.cancel_fst, decide_eq_decide.mpr (hs.count_pos_iff id)]
  rfl

/-- What the worker does with a task from its queue goes by the mark of the task's id. -/
theorem run_of_marked {t : Task} (ht : t.Fresh) {a b : Session (Log × ω)} {x : Except Stop Unit}
    {log : Log} (hrun : Task.perform p.logged t a = (x, b)) (hlog : b.log = a.log ++ log) :
    (Task.marked t a = true → ∀ d ∈ Log.calls log, d.isTelling = true) ∧
      (x ≠ .error .hang →
        ∃ events closing, Task.Ended t (Task.marked t a) events closing log a b) := by
  constructor
  · intro hmarked
    have htells := Task.perform_tells p t ht.builtIn hmarked
    rw [hrun] at htells
    obtain ⟨new, hnew, hcalls⟩ := htells.log
    have hsame : a.log ++ new = a.log ++ log := hnew.symm.trans hlog
    rwa [List.append_cancel_left hsame] at hcalls
  · intro hx
    obtain ⟨new, events, closing, hnew, hended⟩ := Task.perform_whole p ht hrun hx
    have hsame : a.log ++ new = a.log ++ log := hnew.symm.trans hlog
    rw [List.append_cancel_left hsame] at hended
    exact ⟨events, closing, hended⟩

namespace Twins

open Rehearsal

def cast : Cast := {}

def twin : Task :=
  { work := .query (.ofText "SELECT 1"), courier := { requestId := some "a", sink := .channel 1 } }

def created : Session (Log × Scene) := .create "s1" "Mock" {} {} ([], cast.scene {} [])

def started : Session (Log × Scene) := (start cast.parties.logged created).2

/-- Two tasks wait under one id, which is cancelled. -/
def marked : Session (Log × Scene) :=
  ((started.ask cast.parties (.execute twin)).ask cast.parties (.execute twin)).ask
    cast.parties (.cancel "a")

def halfway : Session (Log × Scene) := (Service.takeNext cast.parties.logged marked).2

end Twins
end Session
end DatabaseSession
