import DatabaseSession.Proofs.Course
import DatabaseSession.Proofs.Meanwhile

namespace DatabaseSession

/-- What an outside party is called on to do. Hooks and observers go by their place in line. -/
inductive Duty where
  | connect (options : Options)
  | disconnect
  | release
  | execute (sql : String) (params : List Value)
  | columns
  | fetchRow
  | nextResult
  | stats
  | ping
  | info
  | defaultSchema
  | currentSchema
  | setCurrentSchema (schema : String)
  | interrupter
  | dispose
  | onConnect (hook : Nat)
  | onConnected (hook : Nat)
  | onFailed (hook : Nat) (e : Error)
  | onClose (hook : Nat)
  | notice (observer : Nat) (n : ConnectionNotice)
  | milestone (observer : Nat) (m : Milestone) (requestId : Option String)
  | deliver (sink : Sink) (event : Event)
  /-- The run of a custom task, which has the backend at hand. -/
  | errand (key : Nat)
  | cancelErrand (key : Nat)
  | failErrand (key : Nat) (e : Error)
  | reportErrand (key : Nat)

inductive Entry where
  | called (d : Duty)
  | returned (d : Duty) (x : Except Stop Unit)
  /-- The session was used meanwhile, and answered. -/
  | asked (thread : Thread) (call : Call) (answer : Answer)
  | interrupted (handle : Nat)

abbrev Log := List Entry

namespace Entry

/-- What others do during a party's turn. -/
def isAside : Entry → Bool
  | .asked _ _ _ | .interrupted _ => true
  | .called _ | .returned _ _ => false

end Entry

namespace Log

def calls (log : Log) : List Duty := log.filterMap fun
  | .called d => some d
  | _ => none

/-- The events handed to sinks. -/
def deliveries (log : Log) : List (Sink × Event) := log.filterMap fun
  | .called (.deliver sink event) => some (sink, event)
  | _ => none

/-- The failures taken out of a tracker by those who asked for them. -/
def taken (name : String) (log : Log) : List Failure := log.flatMap fun
  | .asked _ (.failures tracker true) (.failures fs) => if tracker = name then fs else []
  | _ => []

@[simp] theorem calls_nil : calls [] = [] := rfl

@[simp] theorem calls_called (d : Duty) (log : Log) : calls (.called d :: log) = d :: calls log :=
  rfl

@[simp] theorem calls_returned (d : Duty) (x : Except Stop Unit) (log : Log) :
    calls (.returned d x :: log) = calls log := rfl

@[simp] theorem calls_append (a b : Log) : calls (a ++ b) = calls a ++ calls b := by
  simp [calls]

@[simp] theorem deliveries_append (a b : Log) :
    deliveries (a ++ b) = deliveries a ++ deliveries b := by
  simp [deliveries]

@[simp] theorem taken_append (name : String) (a b : Log) :
    taken name (a ++ b) = taken name a ++ taken name b := by
  simp [taken]

theorem eq_append {l l₁ l₂ a b new : Log} (hlog : l₂ = l ++ new) (hfirst : l₁ = l ++ a)
    (hrest : l₂ = l₁ ++ b) : new = a ++ b := by
  rw [hrest, hfirst, List.append_assoc] at hlog
  exact (List.append_cancel_left hlog).symm

theorem calls_asides {asides : Log} (h : ∀ e ∈ asides, e.isAside = true) : calls asides = [] := by
  refine List.filterMap_eq_nil_iff.mpr fun e he => ?_
  have hside := h e he
  cases e with
  | called d => simp [Entry.isAside] at hside
  | returned | asked | interrupted => rfl

end Log

namespace Turn

variable {ω α : Type}

/-- A turn that keeps the log: of the calls it makes meanwhile, and of its end. -/
def logged (d : Duty) : Turn ω α → Log → Turn (Log × ω) α
  | .done x w, log => .done x (log ++ [.returned d (x.map fun _ => ())], w)
  | .ask thread call w next, log => .ask thread call (log, w) fun a lw =>
      (next a lw.2).logged d (lw.1 ++ [.asked thread call a])

end Turn

namespace Play

variable {ω α : Type}

def logged (d : Duty) (m : Play ω α) : Play (Log × ω) α := fun lw =>
  (m lw.2).logged d (lw.1 ++ [.called d])

end Play

namespace Errand

variable {ω : Type}

def logged (key : Nat) : Errand ω → Log → Errand (Log × ω)
  | .done x w, log => .done x (log ++ [.returned (.errand key) x], w)
  | .ask thread call w next, log => .ask thread call (log, w) fun a lw =>
      (next a lw.2).logged key (lw.1 ++ [.asked thread call a])
  | .reconnect w next, log => .reconnect (log, w) fun b lw => (next b lw.2).logged key lw.1

end Errand

namespace Backend

variable {ω : Type}

def logged (c : Backend ω) : Backend (Log × ω) where
  name := c.name
  connect := fun o => (c.connect o).logged (.connect o)
  disconnect := c.disconnect.logged .disconnect
  release := c.release.logged .release
  isConnected := fun lw => c.isConnected lw.2
  execute := fun sql params => (c.execute sql params).logged (.execute sql params)
  columns := c.columns.logged .columns
  fetchRow := c.fetchRow.logged .fetchRow
  nextResult := c.nextResult.logged .nextResult
  stats := c.stats.logged .stats
  ping := c.ping.logged .ping
  info := c.info.logged .info
  defaultSchema := c.defaultSchema.logged .defaultSchema
  currentSchema := c.currentSchema.logged .currentSchema
  setCurrentSchema := fun schema => (c.setCurrentSchema schema).logged (.setCurrentSchema schema)
  interrupter := c.interrupter.logged .interrupter
  dispose := c.dispose.logged .dispose

end Backend

namespace Hook

variable {ω : Type}

def logged (i : Nat) (h : Hook ω) : Hook (Log × ω) where
  onConnect := h.onConnect.logged (.onConnect i)
  onConnected := h.onConnected.logged (.onConnected i)
  onFailed := fun e => (h.onFailed e).logged (.onFailed i e)
  onClose := h.onClose.logged (.onClose i)

end Hook

namespace CustomTask

variable {ω : Type}

def logged (key : Nat) (t : CustomTask ω) : CustomTask (Log × ω) where
  execute := fun view lw =>
    (t.execute view lw.2).logged key (lw.1 ++ [.called (.errand key)])
  cancel := t.cancel.logged (.cancelErrand key)
  fail := fun e => (t.fail e).logged (.failErrand key e)
  stats := t.stats.logged (.reportErrand key)

end CustomTask

namespace Parties

variable {ω : Type}

/-- The same parties with a log of all they are called on to do. -/
def logged (p : Parties ω) : Parties (Log × ω) where
  backend := p.backend.logged
  hooks := p.hooks.mapIdx Hook.logged
  connectionObservers := p.connectionObservers.mapIdx fun i observe n =>
    (observe n).logged (.notice i n)
  taskObservers := p.taskObservers.mapIdx fun i observe m id =>
    (observe m id).logged (.milestone i m id)
  post := fun inbox event lw =>
    (lw.1 ++ [.called (.deliver (.channel inbox) event),
      .returned (.deliver (.channel inbox) event) (.ok ())], p.post inbox event lw.2)
  callback := fun key event => (p.callback key event).logged (.deliver (.callback key) event)
  custom := fun key => (p.custom key).logged key
  interrupt := fun handle lw => (lw.1 ++ [.interrupted handle], p.interrupt handle lw.2)
  clock := fun lw => p.clock lw.2
  patience := p.patience

end Parties

namespace Session

variable {ω : Type}

def log (s : Session (Log × ω)) : Log := s.outside.1

def note (s : Session (Log × ω)) (e : Entry) : Session (Log × ω) :=
  { s with outside := (s.outside.1 ++ [e], s.outside.2) }

@[simp] theorem log_note (s : Session (Log × ω)) (e : Entry) : (s.note e).log = s.log ++ [e] := rfl

/-- The part of a turn in which others use the session: the entries it adds, and what it leaves.
Failures that are asked for leave their tracker. -/
structure Interlude (asides : Log) (s s' : Session (Log × ω)) : Prop extends Meanwhile s s' where
  log : s'.log = s.log ++ asides
  aside : ∀ e ∈ asides, e.isAside = true
  tracked : ∀ name, Log.taken name asides ++ Trackers.failures s'.trackers name =
    Trackers.failures s.trackers name
  killed : (∀ thread a, .asked thread .kill a ∉ asides) → s.killed = false → s'.killed = false

namespace Interlude

theorem ofFiled {s s' : Session (Log × ω)} (h : Filed s s') : Interlude [] s s' where
  toMeanwhile := h.toMeanwhile
  log := by simp [Session.log, h.outside]
  aside := by simp
  tracked := fun name => by simp [Log.taken, h.trackers]
  killed := fun _ hk => h.killed.trans hk

theorem ofOutside (s : Session (Log × ω)) (w : ω) :
    Interlude [] s { s with outside := (s.log, w) } where
  toMeanwhile := ⟨.of_eq rfl rfl, rfl, rfl, rfl, rfl, rfl, rfl, rfl, rfl, rfl⟩
  log := by simp [Session.log]
  aside := by simp
  tracked := fun name => by simp [Log.taken]
  killed := fun _ hk => hk

theorem ofNote (s : Session (Log × ω)) {e : Entry} (he : e.isAside = true)
    (htaken : ∀ name, Log.taken name [e] = []) : Interlude [e] s (s.note e) where
  toMeanwhile := ⟨.of_eq rfl rfl, rfl, rfl, rfl, rfl, rfl, rfl, rfl, rfl, rfl⟩
  log := rfl
  aside := by simpa using he
  tracked := fun name => by simp [htaken, Session.note]
  killed := fun _ hk => hk

theorem ofTake (s : Session (Log × ω)) (thread : Thread) (tracker : String) :
    Interlude [.asked thread (.failures tracker true) (.failures (s.trackers.failures tracker))] s
      ({ s with trackers := s.trackers.set tracker [] }.note
        (.asked thread (.failures tracker true) (.failures (s.trackers.failures tracker)))) where
  toMeanwhile := ⟨.of_eq rfl rfl, rfl, rfl, rfl, rfl, rfl, rfl, rfl, rfl, rfl⟩
  log := rfl
  aside := by simp [Entry.isAside]
  tracked := by
    intro name
    by_cases h : name = tracker
    · simp [Log.taken, Session.note, Trackers.failures_set, h]
    · simp [Log.taken, Session.note, Trackers.failures_set, h, Ne.symm h]
  killed := fun _ hk => hk

theorem ofKill (p : Parties ω) (s : Session (Log × ω)) (thread : Thread) :
    ∃ asides, Interlude asides s ((s.kill p.logged).note (.asked thread .kill .unit)) := by
  cases hi : s.published.interrupter with
  | none =>
    refine ⟨[.asked thread .kill .unit],
      ⟨.of_eq rfl rfl, rfl, rfl, rfl, rfl, rfl, rfl, rfl, rfl, rfl⟩, ?_, ?_, ?_, ?_⟩
    · simp [Session.log, Session.note, kill, hi]
    · simp [Entry.isAside]
    · intro name
      simp [Log.taken, Session.note, kill]
    · intro hn
      exact absurd (List.mem_singleton.mpr rfl) (hn thread .unit)
  | some handle =>
    refine ⟨[.interrupted handle, .asked thread .kill .unit],
      ⟨.of_eq rfl rfl, rfl, rfl, rfl, rfl, rfl, rfl, rfl, rfl, rfl⟩, ?_, ?_, ?_, ?_⟩
    · simp [Session.log, Session.note, kill, hi, Parties.logged]
    · simp [Entry.isAside]
    · intro name
      simp [Log.taken, Session.note, kill]
    · intro hn
      exact absurd (by simp) (hn thread .unit)

theorem append {as bs : Log} {a b c : Session (Log × ω)} (h : Interlude as a b)
    (h' : Interlude bs b c) : Interlude (as ++ bs) a c where
  toMeanwhile := h.toMeanwhile.trans h'.toMeanwhile
  log := by rw [h'.log, h.log, List.append_assoc]
  aside := by
    intro e he
    rcases List.mem_append.mp he with he | he
    · exact h.aside e he
    · exact h'.aside e he
  tracked := by
    intro name
    rw [Log.taken_append, List.append_assoc, h'.tracked, h.tracked]
  killed := by
    intro hn hk
    refine h'.killed (fun t a ha => hn t a (List.mem_append_right _ ha)) (h.killed ?_ hk)
    exact fun t a ha => hn t a (List.mem_append_left _ ha)

end Interlude

/-- A turn in the log: the call, what others did meanwhile, and how it ended, unless it waits for
ever. -/
structure Turned (d : Duty) (x : Except Stop Unit) (new : Log) (s s' : Session (Log × ω)) : Prop
    extends Meanwhile s s' where
  log : s'.log = s.log ++ new
  entries : ∃ asides, (∀ e ∈ asides, e.isAside = true) ∧
    (new = .called d :: (asides ++ [.returned d x]) ∨ x = .error .hang ∧ new = .called d :: asides)
  tracked : ∀ name, Log.taken name new ++ Trackers.failures s'.trackers name =
    Trackers.failures s.trackers name
  killed : (∀ thread a, .asked thread .kill a ∉ new) → s.killed = false → s'.killed = false

theorem Turned.calls {d : Duty} {x : Except Stop Unit} {new : Log} {s s' : Session (Log × ω)}
    (h : Turned d x new s s') : Log.calls new = [d] := by
  obtain ⟨asides, hside, rfl | ⟨_, rfl⟩⟩ := h.entries <;> simp [Log.calls_asides hside]

theorem Turned.returned {d d' : Duty} {x y : Except Stop Unit} {new : Log}
    {s s' : Session (Log × ω)} (h : Turned d x new s s') (hy : .returned d' y ∈ new) :
    d' = d ∧ y = x := by
  obtain ⟨asides, hside, rfl | ⟨_, rfl⟩⟩ := h.entries
  · simp only [List.mem_cons, reduceCtorEq, List.mem_append, List.not_mem_nil, or_false,
      false_or] at hy
    rcases hy with hy | hy
    · simpa [Entry.isAside] using hside _ hy
    · cases hy
      exact ⟨rfl, rfl⟩
  · simp only [List.mem_cons, reduceCtorEq, false_or] at hy
    simpa [Entry.isAside] using hside _ hy

theorem Turned.panicked {d : Duty} {q : Panic} {new : Log} {s s' : Session (Log × ω)}
    (h : Turned d (.error (.panic q)) new s s') : .returned d (.error (.panic q)) ∈ new := by
  obtain ⟨asides, -, rfl | ⟨hhang, -⟩⟩ := h.entries
  · exact List.mem_cons_of_mem _ (List.mem_append_right _ (List.mem_singleton.mpr rfl))
  · cases hhang

theorem note_meanwhile (s : Session (Log × ω)) (e : Entry) : Meanwhile s (s.note e) :=
  ⟨.of_eq rfl rfl, rfl, rfl, rfl, rfl, rfl, rfl, rfl, rfl, rfl⟩

theorem Interlude.turned_hang {asides : Log} {d : Duty} {s s₁ : Session (Log × ω)}
    (h : Interlude asides (s.note (.called d)) s₁) :
    Turned d (.error .hang) (.called d :: asides) s s₁ where
  toMeanwhile := (note_meanwhile s _).trans h.toMeanwhile
  log := by simp [h.log]
  entries := ⟨asides, h.aside, .inr ⟨rfl, rfl⟩⟩
  tracked := h.tracked
  killed := fun hn hk => h.killed (fun t a ha => hn t a (List.mem_cons_of_mem _ ha)) hk

theorem Interlude.turned {asides : Log} {d : Duty} {s s₁ : Session (Log × ω)}
    (h : Interlude asides (s.note (.called d)) s₁) (x : Except Stop Unit) :
    Turned d x (.called d :: (asides ++ [.returned d x])) s (s₁.note (.returned d x)) where
  toMeanwhile := ((note_meanwhile s _).trans h.toMeanwhile).trans (note_meanwhile s₁ _)
  log := by simp [h.log]
  entries := ⟨asides, h.aside, .inl rfl⟩
  tracked := fun name => by simpa [Log.taken, note] using h.tracked name
  killed := fun hn hk => h.killed (fun t a ha => hn t a (by simp [ha])) hk

/-- A call that is answered makes an interlude together with its entry. -/
theorem answer_interlude (p : Parties ω) (thread : Thread) (call : Call) (a : Answer)
    (s s' : Session (Log × ω)) (h : answer p.logged thread call s = (some a, s')) :
    ∃ asides, Interlude asides s (s'.note (.asked thread call a)) := by
  have hplain (hcall : ∀ name, call ≠ .failures name true) (hi : Interlude [] s s') :
      ∃ asides, Interlude asides s (s'.note (.asked thread call a)) := by
    refine ⟨_, hi.append (Interlude.ofNote s' (e := .asked thread call a) rfl ?_)⟩
    intro name
    simp only [Log.taken, List.flatMap_cons, List.flatMap_nil, List.append_nil]
    split
    · next heq =>
      cases heq
      exact absurd rfl (hcall _)
    · rfl
  rcases answer_cases p.logged thread call s with ⟨hcall, hf⟩ | ⟨t, rfl, hf⟩ | ⟨rfl, hk⟩ |
    ⟨name, rfl, ht⟩
  · rw [h] at hf
    exact hplain hcall (.ofFiled hf)
  · rw [h] at hf
    have hi := Interlude.ofFiled hf
    exact hplain (by simp) { hi with killed := fun _ _ => hf.killed }
  · rw [h] at hk
    cases hk
    exact Interlude.ofKill p s thread
  · rw [h] at ht
    cases ht
    exact ⟨_, Interlude.ofTake s thread name⟩

theorem unanswered_interlude (p : Parties ω) (thread : Thread) (call : Call)
    (s s' : Session (Log × ω)) (h : answer p.logged thread call s = (none, s')) :
    Interlude [] s s' := by
  rcases answer_cases p.logged thread call s with ⟨_, hf⟩ | ⟨t, rfl, hf⟩ | ⟨rfl, hk⟩ |
    ⟨name, rfl, ht⟩
  · rw [h] at hf
    exact .ofFiled hf
  · rw [h] at hf
    exact { Interlude.ofFiled hf with killed := fun _ _ => hf.killed }
  · rw [h] at hk
    cases hk
  · rw [h] at ht
    cases ht

end Session

namespace Run

variable {ω α : Type}

open Session in
/-- A logged turn: an interlude, and at its end the entry that tells how it ended. A turn that
waits for an answer for ever has no end. -/
theorem play_logged (p : Parties ω) (d : Duty) (t : Turn ω α) (s : Session (Log × ω)) :
    ∃ asides s₁, Interlude asides s s₁ ∧
      (play p.logged (t.logged d s.log) s = (.error .hang, s₁) ∨
        ∃ x, play p.logged (t.logged d s.log) s =
          (x, s₁.note (.returned d (x.map fun _ => ())))) := by
  induction t generalizing s with
  | done x w => exact ⟨[], _, .ofOutside s w, .inr ⟨x, rfl⟩⟩
  | ask thread call w next ih =>
    have hout := Interlude.ofOutside s w
    rcases ha : answer p.logged thread call { s with outside := (s.log, w) } with ⟨_ | a, s'⟩
    · refine ⟨_, s', hout.append (unanswered_interlude p thread call _ s' ha), .inl ?_⟩
      simp only [Turn.logged, play, ha]
    · obtain ⟨as, hask⟩ := answer_interlude p thread call a _ s' ha
      obtain ⟨bs, s₁, hrest, hend⟩ := ih a s'.outside.2 (s'.note (.asked thread call a))
      refine ⟨_, s₁, (hout.append hask).append hrest, ?_⟩
      simp only [Turn.logged, play, ha]
      rw [log_note, note, play_outside] at hend
      exact hend

open Session in
theorem party_logged (p : Parties ω) (d : Duty) (m : Play ω α) (s : Session (Log × ω)) :
    ∃ new, Turned d ((party p.logged (m.logged d) s).1.map fun _ => ()) new s
      (party p.logged (m.logged d) s).2 := by
  obtain ⟨asides, s₁, hi, h⟩ := play_logged p d (m s.outside.2) (s.note (.called d))
  rw [log_note, note, play_outside] at h
  change ∃ new, Turned d ((play p.logged _ s).1.map _) new s (play p.logged _ s).2
  rcases h with h | ⟨x, h⟩
  · refine ⟨.called d :: asides, ?_⟩
    rw [Play.logged, ← log, h]
    exact hi.turned_hang
  · refine ⟨.called d :: (asides ++ [.returned d (x.map fun _ => ())]), ?_⟩
    rw [Play.logged, ← log, h]
    exact hi.turned _

end Run
end DatabaseSession
