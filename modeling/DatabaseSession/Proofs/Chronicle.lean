import DatabaseSession.Proofs.Handling

namespace DatabaseSession

open Run Session

variable {ω : Type}

/-- Called on only for a task. -/
def Duty.isForTasks (d : Duty) : Bool :=
  d.isReading || d.isSchema || d.isErrand || match d with
    | .milestone _ _ _ | .deliver _ _ => true
    | _ => false

theorem Duty.isForTasks_of_isConnecting {kind : Attempt → Bool} {d : Duty}
    (hd : d.isConnecting kind = true) : d.isForTasks = false := by
  cases d <;> simp_all [isConnecting, isForTasks, isReading, isSchema, isErrand]

theorem Duty.isForTasks_of_isPublishing {d : Duty} (hd : d.isPublishing = true) :
    d.isForTasks = false := by
  cases d <;> simp_all [isPublishing, isForTasks, isReading, isSchema, isErrand]

def Handling.perform (p : Parties ω) (t : Task) : Handling → Run ω Unit
  | .run => Task.perform p t
  | .cancel => Service.discardTask p t

/-- What the log of an episode tells: the tasks are no concern of it, or all that it calls on is for
its own task. -/
def Episode.Tells (p : Parties ω) : Episode → Prop
  | .other log => ∀ d ∈ Log.calls log, d.isForTasks = false
  | .task .run t _ x log => (∀ d ∈ Log.calls log, d.Serves t) ∧ Task.Carried p t x log
  | .task .cancel t _ x log =>
    (∀ d ∈ Log.calls log, d.WorksFor t) ∧ (x = .ok () ∨ x = .error .hang)

namespace Chronicle

def outcomes (c : Chronicle) : List (Handling × Except Stop Unit) := c.flatMap fun
  | .other _ => []
  | .task how _ _ x _ => [(how, x)]

@[simp] theorem outcomes_append (a b : Chronicle) :
    outcomes (a ++ b) = outcomes a ++ outcomes b := by simp [outcomes]

@[simp] theorem outcomes_other (log : Log) : outcomes [.other log] = [] := rfl

@[simp] theorem outcomes_task (how : Handling) (t : Task) (marked : Bool) (x : Except Stop Unit)
    (log : Log) : outcomes [.task how t marked x log] = [(how, x)] := rfl

@[simp] theorem occurrences_other (log : Log) : occurrences [.other log] = log.map .entry := by
  simp [occurrences, Episode.occurrences]

@[simp] theorem occurrences_task (how : Handling) (t : Task) (marked : Bool)
    (x : Except Stop Unit) (log : Log) :
    occurrences [.task how t marked x log] = .taken t marked :: log.map .entry := by
  simp [occurrences, Episode.occurrences]

end Chronicle

namespace Session

/-- No task is handled from the one state to the other. -/
structure Idles (new : Log) (s s' : Session (Log × ω)) : Prop where
  log : s'.log = s.log ++ new
  calls : ∀ d ∈ Log.calls new, d.isForTasks = false
  work : s'.active.work = s.active.work
  courier : s'.active.courier = s.active.courier

/-- The chronicle tells how the one state came from the other: which tasks were handled, and that
there were no others. -/
inductive Unfolds (p : Parties ω) (s : Session (Log × ω)) :
    Chronicle → Session (Log × ω) → Prop where
  | refl : Unfolds p s [] s
  | other {c : Chronicle} {a b : Session (Log × ω)} {log : Log} (h : Unfolds p s c a)
      (hidle : Idles log a b) : Unfolds p s (c ++ [.other log]) b
  | task {c : Chronicle} {a b : Session (Log × ω)} {how : Handling} {t : Task}
      {x : Except Stop Unit} {log : Log} (h : Unfolds p s c a)
      (hrun : how.perform p.logged t a = (x, b)) (hlog : b.log = a.log ++ log) :
      Unfolds p s (c ++ [.task how t (Task.marked t a) x log]) b

namespace Unfolds

variable {p : Parties ω} {s s₁ s₂ : Session (Log × ω)} {c c' : Chronicle}

theorem trans (h : Unfolds p s c s₁) (h' : Unfolds p s₁ c' s₂) : Unfolds p s (c ++ c') s₂ := by
  induction h' with
  | refl => simpa using h
  | other _ hidle ih =>
    rw [← List.append_assoc]
    exact .other ih hidle
  | task _ hrun hlog ih =>
    rw [← List.append_assoc]
    exact .task ih hrun hlog

theorem log (h : Unfolds p s c s₁) : s₁.log = s.log ++ c.log := by
  induction h with
  | refl => simp [Chronicle.log]
  | other _ hidle ih => rw [hidle.log, ih]; simp [Chronicle.log, Episode.log]
  | task _ _ hlog ih => rw [hlog, ih]; simp [Chronicle.log, Episode.log]

/-- A task in the chronicle was handled so in a state that the session came to. -/
theorem of_mem (h : Unfolds p s c s₁) {how : Handling} {t : Task} {marked : Bool}
    {x : Except Stop Unit} {log : Log} (hmem : .task how t marked x log ∈ c) :
    ∃ a b, how.perform p.logged t a = (x, b) ∧ marked = Task.marked t a ∧
      b.log = a.log ++ log := by
  induction h with
  | refl => simp at hmem
  | other _ _ ih =>
    refine ih ?_
    simpa using hmem
  | @task c a b how' t' x' log' _ hrun hlog ih =>
    rcases List.mem_append.mp hmem with hmem | hmem
    · exact ih hmem
    · cases List.mem_singleton.mp hmem
      exact ⟨a, b, hrun, rfl, hlog⟩

end Unfolds

/-- The chronicle of what led from a tallied state to another. -/
structure Chronicled (p : Parties ω) (c : Chronicle) (s s' : Session (Log × ω)) : Prop where
  unfolds : Unfolds p s c s'
  tells : ∀ e ∈ c, e.Tells p
  tallied : Tallied s'
  waitlist : s.waitlist.after c.occurrences = some s'.waitlist
  life : s'.life = s.life ∨ s.life = .threaded ∧ s'.life = .closed

namespace Chronicled

variable {p : Parties ω} {s s' a b : Session (Log × ω)} {c c' : Chronicle}

theorem append (h : Chronicled p c s a) (h' : Chronicled p c' a b) :
    Chronicled p (c ++ c') s b where
  unfolds := h.unfolds.trans h'.unfolds
  tells := fun e he => (List.mem_append.mp he).elim (h.tells e) (h'.tells e)
  tallied := h'.tallied
  waitlist := by
    rw [Chronicle.occurrences_append, Waitlist.after_append, h.waitlist]
    exact h'.waitlist
  life := by
    rcases h.life with hl | ⟨hl, hc⟩
    · simpa [hl] using h'.life
    · refine .inr ⟨hl, ?_⟩
      rcases h'.life with hl' | ⟨_, hc'⟩
      · exact hl'.trans hc
      · exact hc'

theorem refl (hs : Tallied s) : Chronicled p [] s s := ⟨.refl, by simp, hs, rfl, .inl rfl⟩

theorem ofProceeds {log : Log} (h : Proceeds (fun d => d.isForTasks = false) log s s')
    (hwork : s'.active.work = s.active.work) (hcourier : s'.active.courier = s.active.courier) :
    Chronicled p [.other log] s s' where
  unfolds := .other .refl ⟨h.log, h.calls, hwork, hcourier⟩
  tells := fun e he => by
    rw [List.mem_singleton.mp he]
    exact h.calls
  tallied := h.tallied
  waitlist := by
    rw [Chronicle.occurrences_other]
    exact h.waitlist
  life := h.life

end Chronicled

/-- Like this task in all that the handling of tasks changes. -/
def Resembles (t u : Task) : Prop := u.work = t.work ∧ u.courier = t.courier

theorem resembles_settles (t : Task) : Settles (Resembles t) := by
  intro u v hwork hcourier h
  exact ⟨hwork.trans h.1, hcourier.trans h.2⟩

/-- The growth of a session in which no task is handled, as long as the active one is like `t`. -/
theorem idle_growth (p : Parties ω) (t : Task) :
    Growth p (fun d => d.isForTasks = false)
      (Pursues (fun d => d.isForTasks = false) (Resembles t)) :=
  pursues_growth p (resembles_settles t)

/-- The first task is taken out of the queue and handled, from the state `v` on in which it has
become the active one. -/
theorem chronicled_of_task {p : Parties ω} (how : Handling) (v : Session (Log × ω)) {t : Task}
    {x : Except Stop Unit} {s b : Session (Log × ω)} {rest : List Request} {P : Duty → Prop}
    (hs : Tallied s) (hqueue : s.mailbox.queue = .task t :: rest)
    (hrun : how.perform p.logged t (Service.unqueued s rest) = (x, b))
    (hmailbox : v.mailbox = (Service.unqueued s rest).mailbox)
    (hregistry : v.registry = (s.registry.beginOptional t.requestId).2) (hlife : v.life = s.life)
    (hlog : v.log = s.log)
    (hproceeds : Tallied v → ∃ log, Proceeds P log v b ∧
      (Episode.task how t (Task.marked t s) x log).Tells p) :
    ∃ log, Proceeds P log v b ∧
      Chronicled p ([.other []] ++ [.task how t (Task.marked t s) x log]) s b := by
  have htasks : s.tasks = t :: v.tasks := by
    simp [tasks, hqueue, hmailbox, Service.unqueued, Request.task?]
  have hreceiving : v.mailbox.receiving = s.mailbox.receiving := by rw [hmailbox]; rfl
  -- first the task goes from the queue, with its id; the rest is what its run adds
  obtain ⟨htallied, hnext⟩ := taken_tallied hs htasks hregistry hreceiving
  obtain ⟨log, hrest, htells⟩ := hproceeds htallied
  refine ⟨log, hrest, ?_, ?_, hrest.tallied, ?_, ?_⟩
  · have hidle : Idles [] s (Service.unqueued s rest) :=
      ⟨by simp [Session.log, Service.unqueued], by simp, rfl, rfl⟩
    have hsame : b.log = (Service.unqueued s rest).log ++ log := by
      rw [hrest.log, hlog]
      rfl
    have hunfolds := Unfolds.task (.other .refl hidle) hrun hsame
    exact hunfolds
  · intro e he
    rcases List.mem_append.mp he with he | he
    · rw [List.mem_singleton.mp he]
      simp [Episode.Tells]
    · rw [List.mem_singleton.mp he]
      exact htells
  · rw [Chronicle.occurrences_append, Chronicle.occurrences_other, Chronicle.occurrences_task,
      List.map_nil, List.nil_append, Waitlist.after_cons]
    change (s.waitlist.next (.taken t (s.registry.beginOptional t.requestId).1)).bind _ = _
    rw [hnext]
    exact hrest.waitlist
  · rw [← hlife]
    exact hrest.life

end Session
end DatabaseSession
