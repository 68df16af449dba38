import DatabaseSession.Proofs.Delivery
import DatabaseSession.Proofs.Interleaving

namespace DatabaseSession

namespace Courier

/-- What can be done with a courier and its tracker. -/
inductive Use where
  | send (state : Progress) (message : Option String) (data : Option EventData)
      (error : Option ErrorReport)
  | startRecording
  | stopRecording
  | takeFailures (tracker : String)
  /-- Somebody else tracks a failure. -/
  | addFailure (tracker : String) (f : Failure)

namespace Use

def event? (id : Option String) : Use → Option Event
  | .send state message data error => some ⟨id, state, message, error, data⟩
  | _ => none

def isEnd : Use → Bool
  | .send state _ _ _ => state.isTerminal
  | _ => false

def failure? (name : String) : Use → Option Failure
  | .addFailure tracker f => if tracker = name then some f else none
  | _ => none

end Use

/-- The events to send, up to the first with a terminal state, that one included. -/
def sent (id : Option String) : List Use → List Event
  | [] => []
  | u :: uses => (u.event? id).toList ++ if u.isEnd then [] else sent id uses

/-- What others put into a tracker. -/
def others (name : String) (uses : List Use) : List Failure := uses.filterMap (Use.failure? name)

/-- No recording is under way: each that was started has been stopped. -/
def Idle (uses : List Use) : Prop := ∀ a b, uses = a ++ .startRecording :: b → .stopRecording ∈ b

/-- What a use makes of the courier. -/
def after (d : Courier) : Use → Courier
  | .send state message data error => ((d.send state message data error).map (·.next)).getD d
  | .startRecording => d.startRecording
  | .stopRecording => d.stopRecording.2
  | .takeFailures _ | .addFailure _ _ => d

def through (d : Courier) (uses : List Use) : Courier := uses.foldl after d

def sending (d : Courier) (uses : List Use) : List Event :=
  if d.terminal.isSome then [] else sent d.requestId uses

/-- What these uses put into a tracker. -/
def booking (d : Courier) (name : String) : List Use → List Failure
  | [] => []
  | u :: uses => (u.failure? name).toList
      ++ (if d.tracker = some name then (d.sending [u]).filterMap Event.failure? else [])
      ++ (d.after u).booking name uses

variable {d : Courier} {u : Use} {uses : List Use}

theorem after_send_of_open (h : d.terminal = none) (state : Progress) (message : Option String)
    (data : Option EventData) (error : Option ErrorReport) :
    d.after (.send state message data error) = { d with
      terminal := if state.isTerminal then some state else none
      recorded := d.recorded.map (· ++ [⟨d.requestId, state, message, error, data⟩]) } := by
  simp [after, Courier.send, h]

theorem after_send_of_closed (h : d.terminal.isSome = true) (state : Progress)
    (message : Option String) (data : Option EventData) (error : Option ErrorReport) :
    d.after (.send state message data error) = d := by
  simp [after, Courier.send, h]

theorem after_kept (d : Courier) (u : Use) :
    (d.after u).requestId = d.requestId ∧ (d.after u).sink = d.sink ∧
      (d.after u).tracker = d.tracker := by
  cases u with
  | send state message data error =>
    cases h : d.terminal with
    | none =>
      rw [after_send_of_open h]
      exact ⟨rfl, rfl, rfl⟩
    | some t =>
      rw [after_send_of_closed (by simp [h])]
      exact ⟨rfl, rfl, rfl⟩
  | startRecording | stopRecording | takeFailures | addFailure => exact ⟨rfl, rfl, rfl⟩

theorem terminal_after_of_closed (h : d.terminal.isSome = true) (u : Use) :
    (d.after u).terminal = d.terminal := by
  cases u with
  | send state message data error => rw [after_send_of_closed h]
  | startRecording | stopRecording | takeFailures | addFailure => rfl

theorem terminal_after_of_open (h : d.terminal = none) (u : Use) :
    (d.after u).terminal.isSome = u.isEnd := by
  cases u with
  | send state message data error =>
    rw [after_send_of_open h]
    cases hstate : state.isTerminal <;> simp [Use.isEnd, hstate]
  | startRecording | stopRecording | takeFailures | addFailure =>
    simp [after, Courier.startRecording, Courier.stopRecording, h, Use.isEnd]

theorem terminal_after_of_pending (h : d.terminal = none) (hu : u.isEnd = false) :
    (d.after u).terminal = none := by
  have hafter := terminal_after_of_open h u
  rw [hu] at hafter
  simpa using hafter

theorem sending_of_closed (h : d.terminal.isSome = true) : d.sending uses = [] := if_pos h

theorem sending_of_open (h : d.terminal = none) : d.sending uses = sent d.requestId uses := by
  simp [sending, h]

@[simp] theorem sending_nil (d : Courier) : d.sending [] = [] := by simp [sending, sent]

theorem sending_silent (h : u.event? d.requestId = none) : d.sending [u] = [] := by
  simp [sending, sent, h]

@[simp] theorem through_nil (d : Courier) : d.through [] = d := rfl

@[simp] theorem through_cons (d : Courier) (u : Use) (uses : List Use) :
    d.through (u :: uses) = (d.after u).through uses := rfl

@[simp] theorem through_append (d : Courier) (a b : List Use) :
    d.through (a ++ b) = (d.through a).through b := List.foldl_append

theorem sending_cons (d : Courier) (u : Use) (uses : List Use) :
    d.sending (u :: uses) = d.sending [u] ++ (d.after u).sending uses := by
  cases h : d.terminal with
  | some t =>
    have hclosed : d.terminal.isSome = true := by simp [h]
    have hstill : (d.after u).terminal.isSome = true := by
      rw [terminal_after_of_closed hclosed, hclosed]
    simp [sending_of_closed hclosed, sending_of_closed hstill]
  | none =>
    have hafter := terminal_after_of_open h u
    rw [sending_of_open h, sending_of_open h, sending, hafter, (d.after_kept u).1]
    cases hend : u.isEnd <;> simp [sent, hend]

theorem sending_append (d : Courier) (a b : List Use) :
    d.sending (a ++ b) = d.sending a ++ (d.through a).sending b := by
  induction a generalizing d with
  | nil => rw [sending_nil, through_nil, List.nil_append, List.nil_append]
  | cons u a ih =>
    rw [List.cons_append, sending_cons, ih, sending_cons d u a, List.append_assoc]
    rfl

theorem booking_append (d : Courier) (name : String) (a b : List Use) :
    d.booking name (a ++ b) = d.booking name a ++ (d.through a).booking name b := by
  induction a generalizing d with
  | nil => rfl
  | cons u a ih =>
    simp only [List.cons_append, booking, ih, List.append_assoc]
    rfl

theorem others_cons (name : String) (u : Use) (uses : List Use) :
    others name (u :: uses) = (u.failure? name).toList ++ others name uses := by
  rw [others, List.filterMap_cons]
  cases u.failure? name <;> rfl

theorem booking_of_closed (h : d.terminal.isSome = true) (name : String) :
    d.booking name uses = others name uses := by
  induction uses generalizing d with
  | nil => rfl
  | cons u uses ih =>
    have hstill : (d.after u).terminal.isSome = true := by rw [terminal_after_of_closed h, h]
    rw [booking, sending_of_closed h, ih hstill, others_cons]
    simp

theorem failures_sending_of_pending (h : d.terminal = none) (hu : u.isEnd = false) :
    (d.sending [u]).filterMap Event.failure? = [] := by
  cases u with
  | send state message data error =>
    cases state with
    | pending => simp [sending, h, sent, Use.event?, Event.failure?, Progress.isFailure]
    | ok | error | cancelled => simp [Use.isEnd, Progress.isTerminal] at hu
  | startRecording | stopRecording | takeFailures | addFailure =>
    simp [sending, h, sent, Use.event?]

theorem terminal_through_of_open (h : d.terminal = none) (hopen : ∀ u ∈ uses, u.isEnd = false) :
    (d.through uses).terminal = none := by
  induction uses generalizing d with
  | nil => exact h
  | cons u uses ih =>
    obtain ⟨hu, hrest⟩ := List.forall_mem_cons.mp hopen
    exact ih (terminal_after_of_pending h hu) hrest

theorem terminal_through_of_closed (h : d.terminal.isSome = true) :
    (d.through uses).terminal = d.terminal := by
  induction uses generalizing d with
  | nil => rfl
  | cons u uses ih =>
    have hafter := terminal_after_of_closed h u
    exact (ih (hafter ▸ h)).trans hafter

theorem booking_of_open (h : d.terminal = none) (hopen : ∀ u ∈ uses, u.isEnd = false)
    (name : String) : d.booking name uses = others name uses := by
  induction uses generalizing d with
  | nil => rfl
  | cons u uses ih =>
    obtain ⟨hu, hrest⟩ := List.forall_mem_cons.mp hopen
    rw [booking, failures_sending_of_pending h hu, ih (terminal_after_of_pending h hu) hrest,
      others_cons]
    simp

theorem through_kept (d : Courier) (uses : List Use) :
    (d.through uses).requestId = d.requestId ∧ (d.through uses).sink = d.sink ∧
      (d.through uses).tracker = d.tracker := by
  induction uses generalizing d with
  | nil => exact ⟨rfl, rfl, rfl⟩
  | cons u uses ih =>
    obtain ⟨hid, hsink, htracker⟩ := d.after_kept u
    obtain ⟨hid', hsink', htracker'⟩ := ih (d.after u)
    exact ⟨hid'.trans hid, hsink'.trans hsink, htracker'.trans htracker⟩

theorem recorded_after (hu : u ≠ .stopRecording) {r : List Event} (h : d.recorded = some r) :
    (d.after u).recorded = some (r ++ d.sending [u]) := by
  cases u with
  | send state message data error =>
    cases hterminal : d.terminal with
    | none =>
      rw [after_send_of_open hterminal, sending_of_open hterminal]
      cases hstate : state.isTerminal <;> simp [h, sent, Use.event?, Use.isEnd, hstate]
    | some t =>
      have hclosed : d.terminal.isSome = true := by simp [hterminal]
      rw [after_send_of_closed hclosed, sending_of_closed hclosed, List.append_nil, h]
  | startRecording | takeFailures | addFailure =>
    simp [after, Courier.startRecording, sending, sent, Use.event?, h]
  | stopRecording => exact absurd rfl hu

/-- While a recording goes on it keeps all that is sent, whether it is started again or not. -/
theorem recorded_through (hstop : .stopRecording ∉ uses) {r : List Event}
    (h : d.recorded = some r) : (d.through uses).recorded = some (r ++ d.sending uses) := by
  induction uses generalizing d r with
  | nil => simpa using h
  | cons u uses ih =>
    have hu : u ≠ .stopRecording := fun hu => hstop (hu ▸ List.mem_cons_self)
    rw [sending_cons, ← List.append_assoc]
    exact ih (fun hrest => hstop (List.mem_cons_of_mem _ hrest)) (recorded_after hu h)

theorem idle_cons :
    Idle (u :: uses) ↔ (u = .startRecording → .stopRecording ∈ uses) ∧ Idle uses := by
  constructor
  · intro h
    exact ⟨fun hu => h [] uses (hu ▸ rfl), fun a b hsplit => h (u :: a) b (hsplit ▸ rfl)⟩
  · rintro ⟨hu, hidle⟩ a b hsplit
    cases a with
    | nil =>
      cases hsplit
      exact hu rfl
    | cons u' a =>
      obtain ⟨-, hsplit⟩ := List.cons.inj hsplit
      exact hidle a b hsplit

theorem recorded_after_of_none (hu : u ≠ .startRecording) (h : d.recorded = none) :
    (d.after u).recorded = none := by
  cases u with
  | send state message data error =>
    cases hterminal : d.terminal with
    | none => simp [after_send_of_open hterminal, h]
    | some t => rw [after_send_of_closed (by simp [hterminal]), h]
  | startRecording => exact absurd rfl hu
  | stopRecording => rfl
  | takeFailures | addFailure => exact h

theorem recorded_through_of_idle (hidle : Idle uses)
    (h : d.recorded = none ∨ .stopRecording ∈ uses) : (d.through uses).recorded = none := by
  induction uses generalizing d with
  | nil => simpa using h
  | cons u uses ih =>
    obtain ⟨hu, hrest⟩ := idle_cons.mp hidle
    refine ih hrest ?_
    by_cases hstart : u = .startRecording
    · exact .inr (hu hstart)
    · rcases h with hnone | hstop
      · exact .inl (recorded_after_of_none hstart hnone)
      · rcases List.mem_cons.mp hstop with rfl | hstop
        · exact .inl rfl
        · exact .inr hstop

/-- No recording is under way, or there is a use that opened the one that is. -/
theorem idle_or_recording (uses : List Use) :
    Idle uses ∨ ∃ a b, uses = a ++ .startRecording :: b ∧ Idle a ∧ .stopRecording ∉ b := by
  have hnone : Idle [] := fun a b h => by simp at h
  induction uses with
  | nil => exact .inl hnone
  | cons u uses ih =>
    by_cases hu : u = .startRecording → .stopRecording ∈ uses
    · rcases ih with hidle | ⟨a, b, rfl, hidle, hstop⟩
      · exact .inl (idle_cons.mpr ⟨hu, hidle⟩)
      · refine .inr ⟨u :: a, b, rfl, idle_cons.mpr ⟨fun hstart => ?_, hidle⟩, hstop⟩
        simpa [hstop] using hu hstart
    · obtain ⟨rfl, hstop⟩ := Classical.not_imp.mp hu
      exact .inr ⟨[], uses, rfl, hnone, hstop⟩

variable {ω : Type}

def Use.act (p : Parties ω) (s : Session (Log × ω)) : Use → Session (Log × ω)
  | .send state message data error => (Task.emit p.logged state message data error s).2
  | .startRecording => (Task.update Task.keepingEvents s).2
  | .stopRecording =>
    (Task.update (fun t => { t with courier := t.courier.stopRecording.2 }) s).2
  | .takeFailures tracker => s.ask p (.failures tracker true)
  | .addFailure tracker f => { s with trackers := s.trackers.add tracker f }

/-- Uses the courier of the active task, whatever its sink makes of the events. -/
def Use.run (p : Parties ω) (uses : List Use) (s : Session (Log × ω)) : Session (Log × ω) :=
  uses.foldl (Use.act p) s

/-- Between two states the courier was used so, while the log grew by `new`. -/
structure Used (uses : List Use) (new : Log) (s s' : Session (Log × ω)) : Prop where
  log : s'.log = s.log ++ new
  courier : s'.active.courier = s.active.courier.through uses
  delivered : Log.deliveries new = if s.active.courier.sink = .discard then []
    else (s.active.courier.sending uses).map (Prod.mk s.active.courier.sink)
  tracked : ∀ name, Log.taken name new ++ s'.trackers.failures name =
    s.trackers.failures name ++ s.active.courier.booking name uses

theorem Used.append {a b : List Use} {new new' : Log} {s s₁ s₂ : Session (Log × ω)}
    (h : Used a new s s₁) (h' : Used b new' s₁ s₂) : Used (a ++ b) (new ++ new') s s₂ where
  log := by rw [h'.log, h.log, List.append_assoc]
  courier := by rw [h'.courier, h.courier, through_append]
  delivered := by
    rw [Log.deliveries_append, h.delivered, h'.delivered, h.courier, sending_append,
      (through_kept _ _).2.1]
    split <;> simp
  tracked := by
    intro name
    rw [Log.taken_append, List.append_assoc, h'.tracked, ← List.append_assoc, h.tracked,
      List.append_assoc, h.courier, booking_append]

theorem Used.silent {u : Use} {new : Log} {s s' : Session (Log × ω)}
    (hsilent : u.event? s.active.courier.requestId = none) (hlog : s'.log = s.log ++ new)
    (hcourier : s'.active.courier = s.active.courier.after u) (hdel : Log.deliveries new = [])
    (htracked : ∀ name, Log.taken name new ++ s'.trackers.failures name =
      s.trackers.failures name ++ (u.failure? name).toList) : Used [u] new s s' := by
  have hsending := sending_silent hsilent
  refine ⟨hlog, hcourier, by simp [hdel, hsending], fun name => ?_⟩
  simpa [booking, hsending] using htracked name

theorem Used.ofIgnored {state : Progress} {message : Option String} {data : Option EventData}
    {error : Option ErrorReport} {s : Session (Log × ω)}
    (hclosed : s.active.courier.terminal.isSome = true) :
    Used [.send state message data error] [] s s where
  log := (List.append_nil _).symm
  courier := (after_send_of_closed hclosed _ _ _ _).symm
  delivered := by simp [sending_of_closed hclosed, Log.deliveries]
  tracked := fun name => by simp [booking_of_closed hclosed, Log.taken, others, Use.failure?]

theorem Used.ofHanded {state : Progress} {message : Option String} {data : Option EventData}
    {error : Option ErrorReport} {new : Log} {x : Except Stop Unit} {s s' : Session (Log × ω)}
    (hopen : s.active.courier.terminal = none)
    (h : Task.Handed s.active.courier.sink
      ⟨s.active.courier.requestId, state, message, error, data⟩ new x
      (Task.book s ⟨s.active.courier.requestId, state, message, error, data⟩) s') :
    Used [.send state message data error] new s s' := by
  have hsends := h.sends hopen rfl
  have hsending : s.active.courier.sending [.send state message data error] =
      [⟨s.active.courier.requestId, state, message, error, data⟩] := by
    simp [sending_of_open hopen, sent, Use.event?]
  refine ⟨h.log, ?_, hsending ▸ hsends.delivered, fun name => ?_⟩
  · rw [h.active]
    exact (after_send_of_open hopen _ _ _ _).symm
  · rw [hsends.tracked, booking, hsending]
    simp [booking, Use.failure?]

theorem act_used (p : Parties ω) (u : Use) (s : Session (Log × ω)) :
    ∃ new, Used [u] new s (u.act p s) := by
  cases u with
  | send state message data error =>
    cases hterminal : s.active.courier.terminal with
    | none =>
      obtain ⟨new, x, s', hemit, h⟩ := Task.emit_handed p state message data error s hterminal
      refine ⟨new, ?_⟩
      rw [Use.act, hemit]
      exact .ofHanded hterminal h
    | some t =>
      have hclosed : s.active.courier.terminal.isSome = true := by simp [hterminal]
      refine ⟨[], ?_⟩
      rw [Use.act, Task.emit_closed p.logged state message data error s hclosed]
      exact .ofIgnored hclosed
  | startRecording | stopRecording =>
    exact ⟨[], .silent rfl (List.append_nil _).symm rfl rfl fun name => (List.append_nil _).symm⟩
  | takeFailures tracker =>
    have h := Session.Interlude.ofTake s .caller tracker
    refine ⟨_, .silent rfl h.log rfl (Log.deliveries_asides h.aside) fun name => ?_⟩
    exact (h.tracked name).trans (List.append_nil _).symm
  | addFailure tracker f =>
    refine ⟨[], .silent rfl (List.append_nil _).symm rfl rfl fun name => ?_⟩
    change (s.trackers.add tracker f).failures name = _
    rw [Trackers.failures_add]
    by_cases hname : tracker = name
    · simp [Use.failure?, hname]
    · simp [Use.failure?, hname, Ne.symm hname]

theorem run_used (p : Parties ω) (uses : List Use) (s : Session (Log × ω)) :
    ∃ new, Used uses new s (Use.run p uses s) := by
  induction uses generalizing s with
  | nil =>
    exact ⟨[], (List.append_nil _).symm, rfl, by simp [Log.deliveries],
      fun name => (List.append_nil _).symm⟩
  | cons u uses ih =>
    obtain ⟨new, hstep⟩ := act_used p u s
    obtain ⟨new', hrest⟩ := ih (u.act p s)
    exact ⟨new ++ new', hstep.append hrest⟩

theorem booking_of_end {a b : List Use} (h : d.terminal = none) (hopen : ∀ u ∈ a, u.isEnd = false)
    {state : Progress} (hstate : state.isTerminal = true) (message : Option String)
    (data : Option EventData) (error : Option ErrorReport) (name : String) :
    d.booking name (a ++ .send state message data error :: b) = others name a
      ++ (if d.tracker = some name ∧ state.isFailure = true then [⟨d.requestId, state, error⟩]
        else [])
      ++ others name b := by
  have hthrough := terminal_through_of_open h hopen
  obtain ⟨hid, -, htracker⟩ := d.through_kept a
  have hclosed : ((d.through a).after (.send state message data error)).terminal.isSome = true := by
    rw [terminal_after_of_open hthrough, Use.isEnd, hstate]
  have hown : (if d.tracker = some name then
        ((d.through a).sending [.send state message data error]).filterMap Event.failure? else []) =
      if d.tracker = some name ∧ state.isFailure = true then [⟨d.requestId, state, error⟩]
        else [] := by
    rw [sending_of_open hthrough, hid]
    cases hfailure : state.isFailure <;> simp [sent, Use.event?, Event.failure?, hfailure]
  rw [booking_append, booking_of_open h hopen, booking, booking_of_closed hclosed, htracker, hown]
  simp [Use.failure?]

theorem open_or_ends (uses : List Use) :
    (∀ u ∈ uses, u.isEnd = false) ∨
      ∃ a state message data error b, uses = a ++ .send state message data error :: b ∧
        (∀ u ∈ a, u.isEnd = false) ∧ state.isTerminal = true := by
  cases hfirst : uses.find? Use.isEnd with
  | none => exact .inl (by simpa using hfirst)
  | some u =>
    obtain ⟨hend, a, b, hsplit, hopen⟩ := List.find?_eq_some_iff_append.mp hfirst
    cases u with
    | send state message data error =>
      exact .inr ⟨a, state, message, data, error, b, hsplit, by simpa using hopen, hend⟩
    | startRecording | stopRecording | takeFailures | addFailure => cases hend

theorem terminal_through_of_end {a b : List Use} (h : d.terminal = none)
    (hopen : ∀ u ∈ a, u.isEnd = false) {state : Progress} (hstate : state.isTerminal = true)
    (message : Option String) (data : Option EventData) (error : Option ErrorReport) :
    (d.through (a ++ .send state message data error :: b)).terminal = some state := by
  have hafter : ((d.through a).after (.send state message data error)).terminal = some state := by
    rw [after_send_of_open (terminal_through_of_open h hopen), hstate]
    rfl
  rw [through_append, through_cons, terminal_through_of_closed (by rw [hafter]; rfl), hafter]

/-- What a recording holds: all that was sent since it was opened. -/
theorem recorded_since {a b : List Use} (h : d.terminal = none) (hnone : d.recorded = none)
    (hidle : Idle a) (hstop : .stopRecording ∉ b) :
    sent d.requestId (a ++ .startRecording :: b) = sent d.requestId a
      ++ (d.through (a ++ .startRecording :: b)).stopRecording.1 := by
  have hrecorded : ((d.through a).after .startRecording).recorded = some [] := by
    simp [after, Courier.startRecording, recorded_through_of_idle hidle (.inl hnone)]
  have hkept := recorded_through hstop hrecorded
  have hsilent : (d.through a).sending [.startRecording] = [] := sending_silent rfl
  rw [← sending_of_open h, ← sending_of_open h, sending_append, sending_cons, hsilent,
    through_append, through_cons, Courier.stopRecording, hkept]
  rfl

/-- A new courier, whatever is done with it and whatever its sink makes of the events. The sink is
handed what was to be sent, up to the first terminal state, and that state stays. The courier
tracks that state if it is a failure, and nothing else. A recording gives what was sent since it
was opened, and is over then. -/
theorem run_dispatches (p : Parties ω) {s : Session (Log × ω)} {id : Option String} {sink : Sink}
    {tracker : Option String} (hnew : s.active.courier = { requestId := id, sink, tracker })
    (uses : List Use) :
    ∃ new, (Use.run p uses s).log = s.log ++ new ∧
      Log.deliveries new = (if sink = .discard then [] else (sent id uses).map (Prod.mk sink)) ∧
      ((∀ u ∈ uses, u.isEnd = false) ∧ (Use.run p uses s).active.courier.terminal = none ∧
          (∀ name, Log.taken name new ++ (Use.run p uses s).trackers.failures name =
            s.trackers.failures name ++ others name uses) ∨
        ∃ a state message data error b, uses = a ++ .send state message data error :: b ∧
          (∀ u ∈ a, u.isEnd = false) ∧ state.isTerminal = true ∧
          (Use.run p uses s).active.courier.terminal = some state ∧
          ∀ name, Log.taken name new ++ (Use.run p uses s).trackers.failures name =
            s.trackers.failures name ++ (others name a
              ++ (if tracker = some name ∧ state.isFailure = true then [⟨id, state, error⟩] else [])
              ++ others name b)) ∧
      (Idle uses ∧ (Use.run p uses s).active.courier.stopRecording.1 = [] ∨
        ∃ a b, uses = a ++ .startRecording :: b ∧ Idle a ∧ .stopRecording ∉ b ∧
          sent id uses = sent id a ++ (Use.run p uses s).active.courier.stopRecording.1) ∧
      (Use.run p (uses ++ [.stopRecording]) s).active.courier.recorded = none := by
  obtain ⟨new, hused⟩ := run_used p uses s
  have hcourier := hused.courier
  have htracked := hused.tracked
  rw [hnew] at hcourier htracked
  refine ⟨new, hused.log, ?_, ?_, ?_, ?_⟩
  · rw [hused.delivered, hnew]
    rfl
  · rw [hcourier]
    rcases open_or_ends uses with hopen | ⟨a, state, message, data, error, b, rfl, hopen, hstate⟩
    · refine .inl ⟨hopen, terminal_through_of_open rfl hopen, fun name => ?_⟩
      rw [htracked, booking_of_open rfl hopen]
    · refine .inr ⟨a, state, message, data, error, b, rfl, hopen, hstate,
        terminal_through_of_end rfl hopen hstate _ _ _, fun name => ?_⟩
      rw [htracked, booking_of_end rfl hopen hstate]
  · rw [hcourier]
    -- the last `startRecording` with no `stopRecording` after it decides what is recorded
    rcases idle_or_recording uses with hidle | ⟨a, b, rfl, hidle, hstop⟩
    · refine .inl ⟨hidle, ?_⟩
      rw [Courier.stopRecording, recorded_through_of_idle hidle (.inl rfl)]
      rfl
    · have hsince := recorded_since (d := { requestId := id, sink, tracker }) rfl rfl hidle hstop
      exact .inr ⟨a, b, rfl, hidle, hstop, hsince⟩
  · rw [Use.run, List.foldl_append]
    rfl

/-- A recording is started twice, and a task goes on after it was cancelled. -/
def persistent : List Use :=
  [.startRecording, .send .pending (some "under way") none none, .startRecording,
    .send .cancelled none none none, .send .ok none none none, .takeFailures "t"]

open Rehearsal in
def attended : Session (Log × Scene) :=
  { Session.create "s1" "Mock" {} {} ([], ({} : Cast).scene {} []) with
    active := { work := .query {}, courier := {
      requestId := some "r1", sink := .channel 0, tracker := some "t" } } }

open Rehearsal in
theorem run_dispatches_persistent :
    ∃ new, (Use.run ({} : Cast).parties persistent attended).log = attended.log ++ new ∧
      Log.deliveries new =
        [(.channel 0, ⟨some "r1", .pending, some "under way", none, none⟩),
          (.channel 0, ⟨some "r1", .cancelled, none, none, none⟩)] ∧
      (Use.run ({} : Cast).parties persistent attended).active.courier.terminal =
        some .cancelled := by
  obtain ⟨new, hlog, hdelivered, -⟩ := run_dispatches ({} : Cast).parties (s := attended) rfl
    persistent
  exact ⟨new, hlog, hdelivered, by decide +kernel⟩

end Courier
end DatabaseSession
