import DatabaseSession.Proofs.Growth
import DatabaseSession.Proofs.Waitlist

namespace DatabaseSession

def Request.task? : Request → Option Task
  | .task t => some t
  | _ => none

namespace Call

def submits : Call → Bool
  | .execute _ | .submit _ | .assign _ => true
  | _ => false

/-- Only submissions and cancellations concern the tasks that wait. -/
def concernsTasks : Call → Bool
  | .cancel _ => true
  | call => call.submits

end Call

namespace Registry

/-- What was registered in vain is taken back, with no trace left. -/
theorem beginOptional_enqueueOptional (r : Registry) (id : Option String)
    (h : ∀ x ∈ id, x ∉ r.marked) : ((r.enqueueOptional id).beginOptional id).2 = r := by
  cases id with
  | none => rfl
  | some x =>
    have hmarked : r.marked.filter (· ≠ x) = r.marked := by
      apply List.filter_eq_self.mpr
      intro y hy
      have hne : y ≠ x := fun heq => h x rfl (heq ▸ hy)
      simpa using hne
    simp only [enqueueOptional, enqueue, beginOptional, begin, List.erase_cons_head, hmarked]

end Registry

namespace Session

variable {ω : Type}

def tasks (s : Session ω) : List Task := s.mailbox.queue.filterMap Request.task?

def waitlist (s : Session ω) : Waitlist := ⟨s.tasks, s.registry.marked⟩

/-- The registry keeps count of the queue, no id is marked that does not wait, and where there is
no worker nothing waits. -/
structure Tallied (s : Session ω) : Prop where
  waiting : s.registry.waiting.Perm (s.tasks.filterMap Task.requestId)
  marked : ∀ id ∈ s.registry.marked, id ∈ s.registry.waiting
  attended : s.mailbox.receiving = false → s.tasks = []

namespace Tallied

variable {s s' : Session ω}

theorem count_eq (h : Tallied s) (id : String) :
    s.registry.count id = s.tasks.countP fun t => t.requestId == some id := by
  rw [Registry.count, h.waiting.count_eq, List.count_filterMap]

theorem count_pos_iff (h : Tallied s) (id : String) :
    0 < s.registry.count id ↔ s.waitlist.Waits id := by
  rw [h.count_eq, List.countP_pos_iff]
  simp [Waitlist.Waits, waitlist]

theorem registry_of_empty (h : Tallied s) (hempty : s.tasks = []) : s.registry = ⟨[], []⟩ := by
  have hwaiting : s.registry.waiting = [] := by
    apply List.Perm.eq_nil
    simpa [hempty] using h.waiting
  have hmarked : s.registry.marked = [] := by
    apply List.eq_nil_iff_forall_not_mem.mpr
    intro id hid
    have hmem := h.marked id hid
    simp [hwaiting] at hmem
  cases hr : s.registry with
  | mk waiting marked =>
    rw [hr] at hwaiting hmarked
    exact congrArg₂ Registry.mk hwaiting hmarked

theorem of_same (h : Tallied s) (htasks : s'.tasks = s.tasks) (hregistry : s'.registry = s.registry)
    (hreceiving : s'.mailbox.receiving = s.mailbox.receiving) : Tallied s' where
  waiting := by rw [hregistry, htasks]; exact h.waiting
  marked := by rw [hregistry]; exact h.marked
  attended := by rw [hreceiving, htasks]; exact h.attended

end Tallied

/-- From a tallied state the log grew by these entries, with calls for duties of this kind, and the
tasks that wait are as the entries tell. -/
structure Proceeds (P : Duty → Prop) (new : Log) (s s' : Session (Log × ω)) : Prop where
  log : s'.log = s.log ++ new
  calls : ∀ d ∈ Log.calls new, P d
  tallied : Tallied s'
  waitlist : s.waitlist.after (new.map .entry) = some s'.waitlist
  accepted : Log.accepted new ≠ [] → s.life = .threaded ∧ s.mailbox.receiving = true
  receiving : s'.mailbox.receiving = s.mailbox.receiving
  terminated : s'.terminated = s.terminated
  life : s'.life = s.life ∨ s.life = .threaded ∧ s'.life = .closed

/-- The tasks that wait, what the registry knows of them and the worker are left alone. -/
structure Undisturbed (s s' : Session ω) : Prop where
  tasks : s'.tasks = s.tasks
  registry : s'.registry = s.registry
  receiving : s'.mailbox.receiving = s.mailbox.receiving
  terminated : s'.terminated = s.terminated
  life : s'.life = s.life ∨ s.life = .threaded ∧ s'.life = .closed

theorem Undisturbed.refl (s : Session ω) : Undisturbed s s := ⟨rfl, rfl, rfl, rfl, .inl rfl⟩

theorem Undisturbed.trans {a b c : Session ω} (h : Undisturbed a b) (h' : Undisturbed b c) :
    Undisturbed a c where
  tasks := h'.tasks.trans h.tasks
  registry := h'.registry.trans h.registry
  receiving := h'.receiving.trans h.receiving
  terminated := h'.terminated.trans h.terminated
  life := by
    rcases h.life with hl | ⟨hl, hc⟩
    · simpa [hl] using h'.life
    · refine .inr ⟨hl, ?_⟩
      rcases h'.life with hl' | ⟨_, hc'⟩
      · exact hl'.trans hc
      · exact hc'

namespace Proceeds

variable {P : Duty → Prop} {s s' : Session (Log × ω)}

theorem append {new new' : Log} {a b c : Session (Log × ω)} (h : Proceeds P new a b)
    (h' : Proceeds P new' b c) : Proceeds P (new ++ new') a c where
  log := by rw [h'.log, h.log, List.append_assoc]
  calls := by
    intro d hd
    rw [Log.calls_append] at hd
    exact (List.mem_append.mp hd).elim (h.calls d) (h'.calls d)
  tallied := h'.tallied
  waitlist := by
    rw [List.map_append, Waitlist.after_append, h.waitlist]
    exact h'.waitlist
  accepted := by
    intro hne
    by_cases hnew : Log.accepted new = []
    · have hlater : Log.accepted new' ≠ [] := by simpa [hnew] using hne
      obtain ⟨hlife, hrecv⟩ := h'.accepted hlater
      refine ⟨?_, h.receiving.symm.trans hrecv⟩
      rcases h.life with hl | ⟨_, hc⟩
      · exact hl.symm.trans hlife
      · simp [hc] at hlife
    · exact h.accepted hnew
  receiving := h'.receiving.trans h.receiving
  terminated := h'.terminated.trans h.terminated
  life := by
    rcases h.life with hl | ⟨hl, hc⟩
    · simpa [hl] using h'.life
    · refine .inr ⟨hl, ?_⟩
      rcases h'.life with hl' | ⟨_, hc'⟩
      · exact hl'.trans hc
      · exact hc'

theorem ofUndisturbed (hs : Tallied s) {new : Log} (hlog : s'.log = s.log ++ new)
    (hcalls : ∀ d ∈ Log.calls new, P d) (hplain : ∀ e ∈ new, e.Plain) (h : Undisturbed s s') :
    Proceeds P new s s' where
  log := hlog
  calls := hcalls
  tallied := hs.of_same h.tasks h.registry h.receiving
  waitlist := by
    have hsame : s'.waitlist = s.waitlist := by
      simp only [Session.waitlist, h.tasks, h.registry]
    rw [Waitlist.after_plain _ hplain, hsame]
  accepted := fun hne => absurd (Log.accepted_plain hplain) hne
  receiving := h.receiving
  terminated := h.terminated
  life := h.life

theorem silent (hs : Tallied s) (hlog : s'.log = s.log) (h : Undisturbed s s') :
    Proceeds P [] s s' :=
  .ofUndisturbed hs (by simp [hlog]) (by simp) (by simp) h

theorem mono {Q : Duty → Prop} {new : Log} (h : Proceeds P new s s') (hPQ : ∀ d, P d → Q d) :
    Proceeds Q new s s' := { h with calls := fun d hd => hPQ d (h.calls d hd) }

end Proceeds

theorem tasks_push (s : Session ω) (r : Request) :
    { s with mailbox := s.mailbox.push r }.tasks = s.tasks ++ r.task?.toList := by
  cases h : r.task? <;> simp [tasks, Mailbox.push, List.filterMap_append, h]

theorem sendRequest_undisturbed (s : Session ω) {r : Request} (hr : r.task? = none) :
    Undisturbed s (s.sendRequest r).2 := by
  unfold sendRequest
  split
  · refine ⟨?_, rfl, rfl, rfl, .inl rfl⟩
    have hpush := tasks_push s r
    simpa [hr] using hpush
  · exact .refl s

theorem requestClose_undisturbed (s : Session ω) (h : s.life = .threaded) :
    Undisturbed s s.requestClose := by
  have hsend := sendRequest_undisturbed s (r := .close) rfl
  exact ⟨hsend.tasks, hsend.registry, hsend.receiving, hsend.terminated, .inr ⟨h, rfl⟩⟩

theorem giveUpHandle_undisturbed (s : Session ω) : Undisturbed s s.giveUpHandle := by
  have hleft : Undisturbed s { s with handles := s.handles - 1 } := ⟨rfl, rfl, rfl, rfl, .inl rfl⟩
  unfold giveUpHandle
  dsimp only
  split
  · next h => exact hleft.trans (requestClose_undisturbed _ h.2)
  · exact hleft

theorem requestReconnect_undisturbed (s : Session ω) (options : Option Options) :
    Undisturbed s (s.requestReconnect options).2 := by
  have hsend := sendRequest_undisturbed s (r := .reconnect options s.mailbox.tickets) rfl
  rcases hr : s.sendRequest (.reconnect options s.mailbox.tickets) with ⟨_ | _, s₁⟩ <;>
    rw [hr] at hsend <;> simp only [requestReconnect, hr]
  · exact hsend
  · exact ⟨hsend.tasks, hsend.registry, hsend.receiving, hsend.terminated, hsend.life⟩

theorem answer_undisturbed (p : Parties ω) (thread : Thread) {call : Call}
    (hcall : call.concernsTasks = false) (s : Session ω) :
    Undisturbed s (answer p thread call s).2 := by
  have h := answer_answered p thread call s
  generalize (answer p thread call s).2 = s' at h ⊢
  cases h with
  | unchanged _ => exact .refl s
  | closes hlife => exact requestClose_undisturbed s hlife
  | reconnects options | queuesReconnect options => exact requestReconnect_undisturbed s options
  | executes _ | submits _ | assigns _ | cancels _ =>
    simp [Call.concernsTasks, Call.submits] at hcall
  | kills | takes _ | clones => exact ⟨rfl, rfl, rfl, rfl, .inl rfl⟩
  | drops => exact giveUpHandle_undisturbed s

/-- A task that came to the queue: it is the last one there, and registered. -/
def queued (s : Session ω) (t : Task) : Session ω :=
  { s with
    registry := s.registry.enqueueOptional t.requestId
    mailbox := s.mailbox.push (.task t)
    handles := s.handles + t.handles }

theorem enqueue_attended (s : Session ω) (t : Task) (h : s.mailbox.receiving = true) :
    s.enqueue t = (.ok (), queued s t) := by
  simp [enqueue, sendRequest, h, queued]

theorem enqueue_unattended {s : Session ω} (hs : Tallied s) (t : Task)
    (h : s.mailbox.receiving = false) : s.enqueue t = (.error s.alreadyClosed, s) := by
  have hregistry := hs.registry_of_empty (hs.attended h)
  have hback : ((s.registry.enqueueOptional t.requestId).beginOptional t.requestId).2 =
      s.registry := by
    apply Registry.beginOptional_enqueueOptional
    intro x _
    simp [hregistry]
  simp [enqueue, sendRequest, h, hback]

theorem queued_tallied {s : Session ω} (hs : Tallied s) (t : Task)
    (h : s.mailbox.receiving = true) : Tallied (queued s t) := by
  have htasks : (queued s t).tasks = s.tasks ++ [t] := tasks_push s (.task t)
  refine ⟨?_, ?_, fun hrecv => ?_⟩
  · rw [htasks, List.filterMap_append]
    cases hid : t.requestId with
    | none => simpa [queued, hid, Registry.enqueueOptional] using hs.waiting
    | some id =>
      have hperm : (id :: s.registry.waiting).Perm (s.tasks.filterMap Task.requestId ++ [id]) :=
        (hs.waiting.cons id).trans (List.perm_append_singleton id _).symm
      simpa [queued, hid, Registry.enqueueOptional, Registry.enqueue] using hperm
  · intro x hx
    cases hid : t.requestId with
    | none =>
      simp only [queued, hid, Registry.enqueueOptional] at hx ⊢
      exact hs.marked x hx
    | some id =>
      simp only [queued, hid, Registry.enqueueOptional, Registry.enqueue] at hx ⊢
      exact List.mem_cons_of_mem _ (hs.marked x hx)
  · change s.mailbox.receiving = false at hrecv
    simp [h] at hrecv

theorem plain_asked (thread : Thread) {call : Call} (hcall : call.concernsTasks = false)
    (a : Answer) : (Entry.asked thread call a).Plain := by
  refine ⟨?_, ?_⟩
  · cases call <;> simp_all [Call.concernsTasks, Call.submits, Entry.accepted?]
  · rintro thread' id b heq
    cases heq
    simp [Call.concernsTasks] at hcall

variable {P : Duty → Prop}

theorem plain_proceeds (p : Parties ω) {thread : Thread} {call : Call} {a : Answer}
    {s s' : Session (Log × ω)} (hs : Tallied s) (hcall : call.concernsTasks = false)
    (ha : answer p.logged thread call s = (some a, s')) :
    ∃ new, Proceeds P new s (s'.note (.asked thread call a)) := by
  have hplain := plain_asked thread hcall a
  have hund : Undisturbed s s' := by
    have h := answer_undisturbed p.logged thread hcall s
    rw [ha] at h
    exact h
  have hnoted : Undisturbed s (s'.note (.asked thread call a)) :=
    ⟨hund.tasks, hund.registry, hund.receiving, hund.terminated, hund.life⟩
  have hone : s'.log = s.log → ∃ new, Proceeds P new s (s'.note (.asked thread call a)) := by
    intro hlog
    refine ⟨[.asked thread call a], .ofUndisturbed hs ?_ (by simp [Log.calls])
      (by simpa using hplain) hnoted⟩
    rw [log_note, hlog]
  rcases answer_cases p.logged thread call s with ⟨_, hf⟩ | ⟨t, rfl, _⟩ | ⟨rfl, hk⟩ |
    ⟨name, rfl, ht⟩
  · rw [ha] at hf
    exact hone (by rw [log, hf.outside, log])
  · simp [Call.concernsTasks, Call.submits] at hcall
  · -- a kill leaves an entry of its own if there is somebody to interrupt
    rw [ha] at hk
    cases hk
    cases hi : s.published.interrupter with
    | none => exact hone (by simp [log, kill, hi])
    | some handle =>
      have hlog : (s.kill p.logged).log = s.log ++ [.interrupted handle] := by
        simp [log, kill, hi, Parties.logged]
      have hpair : ∀ e ∈ ([.interrupted handle, .asked thread .kill .unit] : Log), e.Plain := by
        intro e he
        rcases List.mem_cons.mp he with rfl | he
        · exact ⟨rfl, by simp⟩
        · rw [List.mem_singleton.mp he]
          exact hplain
      refine ⟨[.interrupted handle, .asked thread .kill .unit], .ofUndisturbed hs ?_
        (by simp [Log.calls]) hpair hnoted⟩
      rw [log_note, hlog]
      simp
  · rw [ha] at ht
    cases ht
    exact hone rfl

theorem queued_proceeds {s : Session (Log × ω)} (hs : Tallied s) {e : Entry} {t : Task}
    (he : e.accepted? = some t) (hcalls : Log.calls [e] = []) (hlife : s.life = .threaded)
    (hrecv : s.mailbox.receiving = true) : Proceeds P [e] s ((queued s t).note e) := by
  have hcancel : ∀ thread id b, e ≠ .asked thread (.cancel id) (.flag b) := by
    rintro thread id b rfl
    simp [Entry.accepted?] at he
  refine ⟨rfl, by simp [hcalls], ?_, ?_, fun _ => ⟨hlife, hrecv⟩, rfl, rfl, .inl rfl⟩
  · exact (queued_tallied hs t hrecv).of_same rfl rfl rfl
  · have htasks : (queued s t).tasks = s.tasks ++ [t] := tasks_push s (.task t)
    have hmarked : (queued s t).registry.marked = s.registry.marked := by
      cases hid : t.requestId <;> simp [queued, hid, Registry.enqueueOptional, Registry.enqueue]
    have hwaitlist : ((queued s t).note e).waitlist =
        { s.waitlist with tasks := s.tasks ++ [t] } := by
      change (⟨(queued s t).tasks, (queued s t).registry.marked⟩ : Waitlist) = _
      rw [htasks, hmarked]
      rfl
    rw [hwaitlist, List.map_singleton, Waitlist.after_cons, Waitlist.next_entry _ hcancel, he]
    rfl

theorem refused_proceeds {s : Session (Log × ω)} (hs : Tallied s) {e : Entry} (hplain : e.Plain)
    (hcalls : Log.calls [e] = []) : Proceeds P [e] s (s.note e) :=
  .ofUndisturbed hs rfl (by simp [hcalls]) (by simpa using hplain) ⟨rfl, rfl, rfl, rfl, .inl rfl⟩

/-- What an answer to a submission has to be like: the task comes in if and only if all is well. -/
structure Submits (t : Task) (call : Call) (wrap : Except Error Unit → Answer) : Prop where
  well : ∀ thread, (Entry.asked thread call (wrap (.ok ()))).accepted? = some t
  ill : ∀ thread e, (Entry.asked thread call (wrap (.error e))).Plain

theorem submits_execute (t : Task) : Submits t (.execute t) outcomeAnswer :=
  ⟨fun _ => rfl, fun _ _ => ⟨rfl, by simp⟩⟩

theorem submits_submit (t : Task) : Submits t (.submit t) outcomeAnswer :=
  ⟨fun _ => rfl, fun _ _ => ⟨rfl, by simp⟩⟩

theorem submits_assign (t : Task) : Submits t (.assign t) .result :=
  ⟨fun _ => rfl, fun _ _ => ⟨rfl, by simp⟩⟩

theorem submission_proceeds {s s' : Session (Log × ω)} (hs : Tallied s) {t : Task} {call : Call}
    {wrap : Except Error Unit → Answer} (hsub : Submits t call wrap) {thread : Thread} {a : Answer}
    (ha : s.answerSubmission t wrap = (some a, s')) :
    Proceeds P [.asked thread call a] s (s'.note (.asked thread call a)) := by
  rcases answerSubmission_cases s t wrap with h | ⟨e, h⟩ | ⟨hlife, h⟩ <;> rw [h] at ha
  · cases ha
  · cases ha
    exact refused_proceeds hs (hsub.ill thread e) rfl
  · cases hrecv : s.mailbox.receiving with
    | true =>
      rw [enqueue_attended s t hrecv] at ha
      cases ha
      exact queued_proceeds hs (hsub.well thread) rfl hlife hrecv
    | false =>
      rw [enqueue_unattended hs t hrecv] at ha
      cases ha
      exact refused_proceeds hs (hsub.ill thread _) rfl

theorem cancel_proceeds (p : Parties ω) {s s' : Session (Log × ω)} (hs : Tallied s)
    {thread : Thread} {id : String} {a : Answer}
    (ha : answer p.logged thread (.cancel id) s = (some a, s')) :
    Proceeds P [.asked thread (.cancel id) a] s (s'.note (.asked thread (.cancel id) a)) := by
  have hfst : (s.registry.cancel id).1 = decide (s.waitlist.Waits id) := by
    rw [Registry.cancel_fst]
    exact decide_eq_decide.mpr (hs.count_pos_iff id)
  have hwaiting : (s.registry.cancel id).2.waiting = s.registry.waiting := by
    unfold Registry.cancel
    split
    · rfl
    · dsimp only
      split <;> rfl
  -- the registry marks an id if and only if the waitlist does, by `hfst`
  have hmarked : (s.registry.cancel id).2.marked =
      (if (s.registry.cancel id).1 then s.waitlist.mark id else s.waitlist).marked := by
    unfold Registry.cancel Waitlist.mark Registry.isCancelled
    split
    · rfl
    · simp only [List.contains_iff_mem, ↓reduceIte]
      change _ = (if id ∈ s.registry.marked then s.waitlist
        else { s.waitlist with marked := id :: s.registry.marked }).marked
      split <;> rfl
  simp only [answer] at ha
  cases ha
  refine ⟨rfl, by simp [Log.calls], ⟨?_, ?_, hs.attended⟩, ?_,
    by simp [Log.accepted, Entry.accepted?], rfl, rfl, .inl rfl⟩
  · change (s.registry.cancel id).2.waiting.Perm (s.tasks.filterMap Task.requestId)
    rw [hwaiting]
    exact hs.waiting
  · -- what is newly marked waits
    intro x hx
    have hx' : x ∈ (if (s.registry.cancel id).1 then s.waitlist.mark id else s.waitlist).marked :=
      hmarked ▸ hx
    change x ∈ (s.registry.cancel id).2.waiting
    rw [hwaiting]
    rw [hfst] at hx'
    split at hx'
    · next hwaits =>
      rcases (Waitlist.mem_mark _ _ _).mp hx' with rfl | hold
      · have hpos := (hs.count_pos_iff x).mpr (by simpa using hwaits)
        exact List.count_pos_iff.mp hpos
      · exact hs.marked x hold
    · exact hs.marked x hx'
  · rw [List.map_singleton, Waitlist.after_cons]
    have hnext : s.waitlist.next (.entry (.asked thread (.cancel id)
        (.flag (s.registry.cancel id).1))) =
        some (if (s.registry.cancel id).1 then s.waitlist.mark id else s.waitlist) := by
      simp only [Waitlist.next, hfst, ↓reduceIte]
    rw [hnext]
    change some _ = some _
    congr 1
    have htasks : (if (s.registry.cancel id).1 then s.waitlist.mark id else s.waitlist).tasks =
        s.tasks := by
      split
      · exact Waitlist.mark_tasks _ _
      · rfl
    change _ = (⟨s.tasks, (s.registry.cancel id).2.marked⟩ : Waitlist)
    rw [hmarked, ← htasks]

/-- Whatever is asked of a session, what waits afterwards is as the log tells. -/
theorem answer_proceeds (p : Parties ω) {thread : Thread} {call : Call} {a : Answer}
    {s s' : Session (Log × ω)} (hs : Tallied s)
    (ha : answer p.logged thread call s = (some a, s')) :
    ∃ new, Proceeds P new s (s'.note (.asked thread call a)) := by
  cases hcall : call.concernsTasks with
  | false => exact plain_proceeds p hs hcall ha
  | true =>
    cases call with
    | execute t =>
      -- a kill still in force was meant for an earlier one
      have hlift : Proceeds P [] s { s with killed := false } :=
        .silent hs rfl ⟨rfl, rfl, rfl, rfl, .inl rfl⟩
      exact ⟨_, hlift.append (submission_proceeds hlift.tallied (submits_execute t) ha)⟩
    | submit t => exact ⟨_, submission_proceeds hs (submits_submit t) ha⟩
    | assign t => exact ⟨_, submission_proceeds hs (submits_assign t) ha⟩
    | cancel id => exact ⟨_, cancel_proceeds p hs ha⟩
    | _ => simp [Call.concernsTasks, Call.submits] at hcall

theorem unanswered_proceeds (p : Parties ω) {thread : Thread} {call : Call}
    {s s' : Session (Log × ω)} (hs : Tallied s)
    (ha : answer p.logged thread call s = (none, s')) : Proceeds P [] s s' := by
  have hlog : s'.log = s.log := by
    have hi := (unanswered_interlude p thread call s s' ha).log
    simpa using hi
  refine .silent hs hlog ?_
  cases hcall : call.concernsTasks with
  | false =>
    have h := answer_undisturbed p.logged thread hcall s
    rw [ha] at h
    exact h
  | true =>
    have hwaits : ∀ {u : Session (Log × ω)} {t : Task} {wrap : Except Error Unit → Answer},
        Undisturbed s u → u.answerSubmission t wrap = (none, s') → Undisturbed s s' := by
      intro u t wrap hu hnone
      rcases answerSubmission_cases u t wrap with h | ⟨e, h⟩ | ⟨_, h⟩ <;> rw [h] at hnone <;>
        cases hnone
      exact hu
    cases call with
    | execute t => exact hwaits (u := { s with killed := false }) ⟨rfl, rfl, rfl, rfl, .inl rfl⟩ ha
    | submit t => exact hwaits (.refl s) ha
    | assign t => exact hwaits (.refl s) ha
    | cancel id => simp [answer] at ha
    | _ => simp [Call.concernsTasks, Call.submits] at hcall

/-- While the active task is of this kind, all goes on as the log tells, with calls for duties of
this kind. -/
def Pursues (P : Duty → Prop) (A : Task → Prop) (s s' : Session (Log × ω)) : Prop :=
  Tallied s → A s.active → A s'.active ∧ ∃ new, Proceeds P new s s'

/-- A kind of task that is told by its work and its courier. -/
def Settles (A : Task → Prop) : Prop :=
  ∀ {t u : Task}, u.work = t.work → u.courier = t.courier → A t → A u

theorem pursues_growth (p : Parties ω) {A : Task → Prop} (hA : Settles A) :
    Growth p P (Pursues P A) where
  trans := by
    intro a b c h h' ha hact
    obtain ⟨hactb, new, hnew⟩ := h ha hact
    obtain ⟨hactc, new', hnew'⟩ := h' hnew.tallied hactb
    exact ⟨hactc, _, hnew.append hnew'⟩
  unmoved := by
    intro s s' h hs hact
    refine ⟨hA h.work h.courier hact, [], .silent hs (by rw [log, h.outside, log]) ?_⟩
    exact ⟨by rw [tasks, h.queue, tasks], h.registry, h.receiving, h.terminated, .inl h.life⟩
  elsewhere := by
    intro s w hs hact
    exact ⟨hact, [], .silent hs rfl ⟨rfl, rfl, rfl, rfl, .inl rfl⟩⟩
  called := by
    intro s d hd hs hact
    refine ⟨hact, [.called d], .ofUndisturbed hs rfl (by simpa using hd) ?_
      ⟨rfl, rfl, rfl, rfl, .inl rfl⟩⟩
    simp [Entry.Plain, Entry.accepted?]
  returned := by
    intro s d x hs hact
    refine ⟨hact, [.returned d x], .ofUndisturbed hs rfl (by simp) ?_
      ⟨rfl, rfl, rfl, rfl, .inl rfl⟩⟩
    simp [Entry.Plain, Entry.accepted?]
  -- only what is asked in the meantime can move what waits
  asked := by
    intro thread call a s s' ha hs hact
    obtain ⟨asides, hi⟩ := answer_interlude p thread call a s s' ha
    refine ⟨?_, answer_proceeds p hs ha⟩
    rw [hi.active]
    exact hact
  unanswered := by
    intro thread call s s' ha hs hact
    refine ⟨?_, [], unanswered_proceeds p hs ha⟩
    rw [(unanswered_interlude p thread call s s' ha).active]
    exact hact

end Session
end DatabaseSession
