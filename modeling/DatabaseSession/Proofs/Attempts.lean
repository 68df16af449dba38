import DatabaseSession.Proofs.Delivery

namespace DatabaseSession

namespace Duty

/-- What an attempt at a statement does after it has executed the statement. -/
def isFollowUp : Duty → Bool
  | .columns | .fetchRow | .nextResult | .stats | .deliver _ _ => true
  | _ => false

/-- An error here fails the attempt. -/
def isVital : Duty → Bool
  | .execute _ _ | .fetchRow | .nextResult => true
  | _ => false

/-- The error by which the duty fails an attempt, if it does. -/
def fault (d : Duty) : Except Stop Unit → List Error
  | .error (.error e) => if d.isVital then [e] else []
  | _ => []

end Duty

namespace Log

/-- Nobody panicked, and nobody asked to kill what runs. -/
structure Calm (log : Log) : Prop where
  panics : ∀ d q, .returned d (.error (.panic q)) ∉ log
  kills : ∀ thread a, .asked thread .kill a ∉ log

theorem Calm.left {a b : Log} (h : Calm (a ++ b)) : Calm a :=
  ⟨fun d q hm => h.panics d q (List.mem_append_left b hm),
    fun t x hm => h.kills t x (List.mem_append_left b hm)⟩

theorem Calm.right {a b : Log} (h : Calm (a ++ b)) : Calm b :=
  ⟨fun d q hm => h.panics d q (List.mem_append_right a hm),
    fun t x hm => h.kills t x (List.mem_append_right a hm)⟩

instance (log : Log) : Decidable (Calm log) :=
  decidable_of_iff (log.all fun
    | .returned _ (.error (.panic _)) | .asked _ .kill _ => false
    | _ => true) <| by
    constructor
    · intro h
      rw [List.all_eq_true] at h
      exact ⟨fun d q hm => by simpa using h _ hm, fun t a hm => by simpa using h _ hm⟩
    · intro h
      rw [List.all_eq_true]
      intro e he
      split
      · exact absurd he (h.panics _ _)
      · exact absurd he (h.kills _ _)
      · rfl

/-- The errors that failed an attempt at a statement. -/
def faults (log : Log) : List Error := log.filterMap fun
  | .returned d (.error (.error e)) => if d.isVital then some e else none
  | _ => none

@[simp] theorem faults_append (a b : Log) : faults (a ++ b) = faults a ++ faults b := by
  simp [faults]

def executions (log : Log) : List (String × List Value) := (calls log).filterMap fun
  | .execute sql params => some (sql, params)
  | _ => none

@[simp] theorem executions_append (a b : Log) :
    executions (a ++ b) = executions a ++ executions b := by
  simp [executions]

theorem faults_asides {asides : Log} (h : ∀ e ∈ asides, e.isAside = true) : faults asides = [] := by
  refine List.filterMap_eq_nil_iff.mpr fun e he => ?_
  have hside := h e he
  cases e with
  | returned d x => simp [Entry.isAside] at hside
  | called | asked | interrupted => rfl

end Log

namespace Session

variable {ω : Type} {d : Duty} {x : Except Stop Unit} {new : Log} {s s' : Session (Log × ω)}

theorem Turned.faults (h : Turned d x new s s') : Log.faults new = d.fault x := by
  obtain ⟨asides, hside, rfl | ⟨rfl, rfl⟩⟩ := h.entries
  · have hfaults : Log.faults (.called d :: (asides ++ [.returned d x])) =
        Log.faults asides ++ Log.faults [.returned d x] := Log.faults_append asides _
    rw [hfaults, Log.faults_asides hside, List.nil_append]
    rcases x with (e | _ | _) | _
    · cases hv : d.isVital <;> simp [Log.faults, Duty.fault, hv]
    all_goals rfl
  · change Log.faults asides = []
    exact Log.faults_asides hside

theorem Turned.not_calm {q : Panic} (h : Turned d (.error (.panic q)) new s s') :
    ¬Log.Calm new := fun hc => hc.panics d q h.panicked

theorem Turned.unkilled (h : Turned d x new s s') (hc : Log.Calm new) (hk : s.killed = false) :
    s'.killed = false := h.killed hc.kills hk

end Session

/-- A relation for each step of a computation, and one for how the whole of it ends, whose last
step may do what no step before it does. -/
structure Route (ω : Type) where
  Goes : Session ω → Session ω → Prop
  Ends : Except Stop Unit → Session ω → Session ω → Prop
  refl (s : Session ω) : Goes s s
  trans {a b c : Session ω} : Goes a b → Goes b c → Goes a c
  ends {a b : Session ω} : Goes a b → Ends (.ok ()) a b
  after {x : Except Stop Unit} {a b c : Session ω} : Goes a b → Ends x b c → Ends x a c

namespace Run

variable {ω α β : Type} {r : Route ω}

/-- The computation is a step of the route, or ends it before its time. -/
def Steps (r : Route ω) (m : Run ω α) : Prop := ∀ s, match (m s).1 with
  | .ok _ => r.Goes s (m s).2
  | .error stop => r.Ends (.error stop) s (m s).2

def Keeps (r : Route ω) (m : Run ω α) : Prop := ∀ s, r.Ends ((m s).1.map fun _ => ()) s (m s).2

theorem steps_pure (a : α) : Steps r (pure a : Run ω α) := fun s => r.refl s

theorem steps_modify {f : Session ω → Session ω} (h : ∀ s, r.Goes s (f s)) :
    Steps r (modify f : Run ω Unit) := fun s => h s

theorem steps_now (p : Parties ω) : Steps r (now p) := fun s => r.refl s

theorem steps_bind {m : Run ω α} {f : α → Run ω β} (hm : Steps r m) (hf : ∀ a, Steps r (f a)) :
    Steps r (m >>= f) := by
  intro s
  have h := hm s
  rw [bind_apply]
  rcases hms : m s with ⟨stop | a, s₁⟩ <;> rw [hms] at h
  · exact h
  · have h' := hf a s₁
    dsimp only
    rcases hfs : f a s₁ with ⟨stop | b, s₂⟩ <;> rw [hfs] at h'
    · exact r.after h h'
    · exact r.trans h h'

theorem keeps_bind {m : Run ω α} {f : α → Run ω β} (hm : Steps r m) (hf : ∀ a, Keeps r (f a)) :
    Keeps r (m >>= f) := by
  intro s
  have h := hm s
  rw [bind_apply]
  rcases hms : m s with ⟨stop | a, s₁⟩ <;> rw [hms] at h
  · exact h
  · exact r.after h (hf a s₁)

theorem Steps.keeps {m : Run ω α} (hm : Steps r m) : Keeps r m := by
  intro s
  have h := hm s
  rcases hms : m s with ⟨stop | a, s₁⟩ <;> rw [hms] at h
  · exact h
  · exact r.ends h

theorem keeps_bind_pure {m : Run ω α} (hm : Keeps r m) (b : β) :
    Keeps r (m >>= fun _ => pure b) := by
  intro s
  have h := hm s
  rw [bind_apply]
  rcases hms : m s with ⟨stop | a, s₁⟩ <;> rw [hms] at h <;> exact h

end Run
namespace Query

open Run

variable {ω α : Type} {p : Parties ω} {last : Bool}

structure Reads (new : Log) (es : List Event) (s s' : Session (Log × ω)) : Prop where
  sends : Task.Sends new es s s'
  link : s'.link = s.link
  settings : s'.settings = s.settings
  streamed : s.active.streamed = true → s'.active.streamed = true
  states : ∀ e ∈ es, e.state = .pending ∨ e.state = .ok

/-- The task is as open as before, and what has gone out is marked. -/
structure Stays (es : List Event) (s s' : Session ω) : Prop where
  terminal : s'.active.courier.terminal = s.active.courier.terminal
  pending : ∀ e ∈ es, e.state = .pending
  marked : es ≠ [] → s'.active.streamed = true

/-- An attempt fails by the one error that somebody gave it, and not by a panic. -/
def Accounted : Except Stop Unit → List Error → Prop
  | .ok _, faults => faults = []
  | .error (.error e), faults => faults = [e]
  | .error (.panic _), _ => False
  | .error .hang, _ => True

def LeavesOpen (last : Bool) : Except Stop Unit → Prop
  | .ok _ => last = false
  | .error (.error _) => True
  | .error _ => False

theorem Reads.refl (s : Session (Log × ω)) : Reads [] [] s s :=
  ⟨.refl s, rfl, rfl, id, by simp⟩

theorem Reads.append {new new' : Log} {es es' : List Event} {a b c : Session (Log × ω)}
    (h : Reads new es a b) (h' : Reads new' es' b c) : Reads (new ++ new') (es ++ es') a c :=
  ⟨h.sends.append h'.sends, h'.link.trans h.link, h'.settings.trans h.settings,
    fun hs => h'.streamed (h.streamed hs), fun e he =>
      (List.mem_append.mp he).elim (h.states e) (h'.states e)⟩

theorem Stays.refl (s : Session ω) : Stays [] s s := ⟨rfl, by simp, by simp⟩

theorem Stays.append {es es' : List Event} {a b c : Session ω} (h : Stays es a b)
    (h' : Stays es' b c) (hkept : b.active.streamed = true → c.active.streamed = true) :
    Stays (es ++ es') a c where
  terminal := h'.terminal.trans h.terminal
  pending := by
    intro e he
    rcases List.mem_append.mp he with he | he
    · exact h.pending e he
    · exact h'.pending e he
  marked := by
    intro hne
    by_cases hes : es' = []
    · exact hkept (h.marked (by simpa [hes] using hne))
    · exact h'.marked hes

theorem Accounted.after {new new' : List Error} {x : Except Stop Unit} (h : new = [])
    (h' : Accounted x new') : Accounted x (new ++ new') := by
  rw [h, List.nil_append]
  exact h'

/-- How an attempt goes on once the statement is executed. Its last step may close the task. -/
def following (last : Bool) : Route (Log × ω) where
  Goes s s' := ∃ new es, Reads new es s s' ∧ (∀ d ∈ Log.calls new, d.isFollowUp = true) ∧
    Stays es s s' ∧
    (s.killed = false → Log.Calm new → s'.killed = false ∧ Log.faults new = [])
  Ends x s s' := ∃ new es, Reads new es s s' ∧ (∀ d ∈ Log.calls new, d.isFollowUp = true) ∧
    (LeavesOpen last x → Stays es s s') ∧
    (s.killed = false → Log.Calm new → s'.killed = false ∧ Accounted x (Log.faults new))
  refl s := ⟨[], [], .refl s, by simp, .refl s, fun hk _ => ⟨hk, rfl⟩⟩
  trans := by
    rintro a b c ⟨new, es, hr, hd, hs, hf⟩ ⟨new', es', hr', hd', hs', hf'⟩
    refine ⟨_, _, hr.append hr', ?_, hs.append hs' hr'.streamed, ?_⟩
    · intro d h
      rw [Log.calls_append] at h
      exact (List.mem_append.mp h).elim (hd d) (hd' d)
    · intro hk hc
      obtain ⟨hk₁, hnone⟩ := hf hk hc.left
      obtain ⟨hk₂, hnone'⟩ := hf' hk₁ hc.right
      exact ⟨hk₂, by rw [Log.faults_append, hnone, hnone', List.append_nil]⟩
  ends := by
    rintro a b ⟨new, es, hr, hd, hs, hf⟩
    exact ⟨new, es, hr, hd, fun _ => hs, hf⟩
  after := by
    rintro x a b c ⟨new, es, hr, hd, hs, hf⟩ ⟨new', es', hr', hd', hs', hf'⟩
    refine ⟨_, _, hr.append hr', ?_, fun hx => hs.append (hs' hx) hr'.streamed, ?_⟩
    · intro d h
      rw [Log.calls_append] at h
      exact (List.mem_append.mp h).elim (hd d) (hd' d)
    · intro hk hc
      obtain ⟨hk₁, hnone⟩ := hf hk hc.left
      obtain ⟨hk₂, hacc⟩ := hf' hk₁ hc.right
      exact ⟨hk₂, by rw [Log.faults_append]; exact hacc.after hnone⟩

theorem Reads.ofTurned {d : Duty} {x : Except Stop Unit} {new : Log} {s s' : Session (Log × ω)}
    (h : Session.Turned d x new s s') (hd : Log.deliveries [.called d] = []) :
    Reads new [] s s' :=
  ⟨.ofTurned h hd, h.link, h.settings, fun hs => by rw [h.active]; exact hs, by simp⟩

theorem Stays.ofTurned {d : Duty} {x : Except Stop Unit} {new : Log} {s s' : Session (Log × ω)}
    (h : Session.Turned d x new s s') : Stays [] s s' :=
  ⟨by rw [h.active], by simp, by simp⟩

theorem steps_vital {d : Duty} (hd : Log.deliveries [.called d] = [])
    (hfollow : d.isFollowUp = true) (hvital : d.isVital = true) (m : Play ω α) :
    Steps (following last) (party p.logged (m.logged d)) := by
  intro s
  obtain ⟨new, ht⟩ := party_logged p d m s
  have hcalls : ∀ d' ∈ Log.calls new, d'.isFollowUp = true := by
    rw [ht.calls]
    simpa using hfollow
  rcases hr : party p.logged (m.logged d) s with ⟨(e | q | _) | a, s'⟩ <;> rw [hr] at ht
  · exact ⟨new, [], .ofTurned ht hd, hcalls, fun _ => .ofTurned ht, fun hk hc =>
      ⟨ht.unkilled hc hk, by rw [ht.faults]; simp [Accounted, Duty.fault, Except.map, hvital]⟩⟩
  · exact ⟨new, [], .ofTurned ht hd, hcalls, fun _ => .ofTurned ht, fun _ hc =>
      absurd hc ht.not_calm⟩
  · exact ⟨new, [], .ofTurned ht hd, hcalls, fun _ => .ofTurned ht, fun hk hc =>
      ⟨ht.unkilled hc hk, trivial⟩⟩
  · exact ⟨new, [], .ofTurned ht hd, hcalls, .ofTurned ht, fun hk hc =>
      ⟨ht.unkilled hc hk, ht.faults⟩⟩

theorem steps_valueOr {d : Duty} (hd : Log.deliveries [.called d] = [])
    (hfollow : d.isFollowUp = true) (hvital : d.isVital = false) (default : α) (m : Play ω α) :
    Steps (following last) (valueOr default (party p.logged (m.logged d))) := by
  intro s
  obtain ⟨new, ht⟩ := party_logged p d m s
  have hcalls : ∀ d' ∈ Log.calls new, d'.isFollowUp = true := by
    rw [ht.calls]
    simpa using hfollow
  rw [valueOr_apply]
  rcases hr : party p.logged (m.logged d) s with ⟨(e | q | _) | a, s'⟩ <;> rw [hr] at ht
  · exact ⟨new, [], .ofTurned ht hd, hcalls, .ofTurned ht, fun hk hc =>
      ⟨ht.unkilled hc hk, by rw [ht.faults]; simp [Duty.fault, Except.map, hvital]⟩⟩
  · exact ⟨new, [], .ofTurned ht hd, hcalls, fun _ => .ofTurned ht, fun _ hc =>
      absurd hc ht.not_calm⟩
  · exact ⟨new, [], .ofTurned ht hd, hcalls, fun _ => .ofTurned ht, fun hk hc =>
      ⟨ht.unkilled hc hk, trivial⟩⟩
  · exact ⟨new, [], .ofTurned ht hd, hcalls, .ofTurned ht, fun hk hc =>
      ⟨ht.unkilled hc hk, ht.faults⟩⟩

section Handed

variable {sink : Sink} {event : Event} {new : Log} {x : Except Stop Unit}
variable {s s' : Session (Log × ω)}

theorem Handed.followUp (h : Task.Handed sink event new x s s') :
    ∀ d ∈ Log.calls new, d.isFollowUp = true := by
  intro d hd
  rw [h.calls] at hd
  split at hd
  · simp at hd
  · rw [List.mem_singleton.mp hd]
    rfl

/-- A sink cannot fail an attempt. -/
theorem Handed.faults (h : Task.Handed sink event new x s s') : Log.faults new = [] := by
  refine List.filterMap_eq_nil_iff.mpr fun e he => ?_
  cases e with
  | returned d y =>
    obtain rfl := h.returned d y he
    rcases y with (_ | _ | _) | _ <;> rfl
  | called | asked | interrupted => rfl

theorem Handed.accounted (h : Task.Handed sink event new x s s') (hc : Log.Calm new) :
    Accounted x (Log.faults new) := by
  rw [Handed.faults h]
  rcases x with (e | q | _) | _
  · exact absurd rfl (h.unfailing e)
  · exact absurd (h.blamed q rfl) (hc.panics _ q)
  · trivial
  · rfl

end Handed

theorem steps_stream (chunk : Chunk) : Steps (following last) (Task.stream p.logged chunk) := by
  intro s
  have hmark : Reads [] [] s (Task.markStreamed s) :=
    ⟨.silent (by simp [Session.log, Task.markStreamed]) rfl rfl rfl
      (by simp [Log.taken, Task.markStreamed]), rfl, rfl, fun _ => rfl, by simp⟩
  rw [Task.stream_apply]
  cases hterm : s.active.courier.terminal with
  | some st =>
    rw [Task.emit_closed _ _ _ _ _ (Task.markStreamed s) (by simp [Task.markStreamed, hterm])]
    exact ⟨[], [], hmark, by simp, ⟨rfl, by simp, by simp⟩, fun hk _ => ⟨hk, rfl⟩⟩
  | none =>
    obtain ⟨new, x, s', hr, h⟩ :=
      Task.emit_handed p .pending none (some (.rows chunk)) none (Task.markStreamed s) hterm
    have hreads := hmark.append (c := s')
      ⟨h.sends hterm rfl, h.link, h.settings, fun _ => by rw [h.active]; rfl, by simp⟩
    have hstays : Stays [⟨s.active.courier.requestId, .pending, none, none, some (.rows chunk)⟩]
        s s' := ⟨by rw [h.active, hterm]; rfl, by simp, fun _ => by rw [h.active]; rfl⟩
    have hunkilled : s.killed = false → Log.Calm new → s'.killed = false := fun hk hc =>
      h.killed hc.kills hk
    rw [hr]
    rcases x with stop | _
    · exact ⟨new, _, hreads, Handed.followUp h, fun _ => hstays, fun hk hc =>
        ⟨hunkilled hk hc, Handed.accounted h hc⟩⟩
    · exact ⟨new, _, hreads, Handed.followUp h, hstays, fun hk hc =>
        ⟨hunkilled hk hc, Handed.faults h⟩⟩

theorem steps_stream_then (chunk : Chunk) {m : Run (Log × ω) α} (hm : Steps (following last) m) :
    Steps (following last) (do
      Task.update fun t => { t with streamed := true }
      Task.emit p.logged .pending none (some (.rows chunk)) none
      m) := by
  have h : Steps (following last) (Task.stream p.logged chunk >>= fun _ => m) :=
    steps_bind (steps_stream chunk) fun _ => hm
  rw [Task.stream, bind_assoc] at h
  exact h

/-- The closing event can be the last step only. -/
theorem keeps_close (message : Option String) (data : Option EventData) :
    Keeps (following true) (Task.emit p.logged .ok message data none) := by
  intro s
  cases hterm : s.active.courier.terminal with
  | some st =>
    rw [Task.emit_closed _ _ _ _ _ s (by simp [hterm])]
    exact (following true).ends ((following true).refl s)
  | none =>
    obtain ⟨new, x, s', hr, h⟩ := Task.emit_handed p .ok message data none s hterm
    rw [hr]
    refine ⟨new, _, ⟨h.sends hterm rfl, h.link, h.settings,
      fun hs => by rw [h.active]; exact hs, by simp⟩, Handed.followUp h, ?_,
      fun hk hc => ⟨h.killed hc.kills hk, ?_⟩⟩
    · intro hopen
      rcases x with (e | _ | _) | _
      · exact absurd rfl (h.unfailing e)
      all_goals simp [LeavesOpen, Except.map] at hopen
    · rcases x with stop | _ <;> exact Handed.accounted h hc

theorem steps_unlessKilled (sql : String) {m : Run (Log × ω) α} (hm : Steps (following last) m) :
    Steps (following last) (do
      if (← get).killed then Run.raise (Error.killed (some sql))
      m) := by
  intro s
  rw [get_bind_apply]
  cases hk : s.killed with
  | true =>
    exact ⟨[], [], .refl s, by simp, fun _ => .refl s, fun hk' => by simp [hk] at hk'⟩
  | false => exact hm s

theorem steps_hang : Steps (following last) (hang : Run (Log × ω) α) := fun s =>
  ⟨[], [], .refl s, by simp, fun h => h.elim, fun hk _ => ⟨hk, trivial⟩⟩

theorem steps_acceptRow (q : Query) (columns : List Column) (r : Reading) (row : Row) :
    Steps (following last) (acceptRow p.logged q columns r row) := by
  unfold acceptRow
  cases q.shape with
  | rows =>
    dsimp only
    split
    · exact steps_stream_then _ (steps_pure _)
    · exact steps_pure _
  | oneField => exact steps_pure _
  | oneFieldList => exact steps_pure _

theorem steps_readRows (q : Query) (sql : String) (columns : List Column) (patience : Nat)
    (r : Reading) : Steps (following last) (readRows p.logged q sql columns patience r) := by
  induction patience generalizing r with
  | zero => exact steps_hang
  | succ patience ih =>
    refine steps_unlessKilled sql (steps_bind (steps_vital (d := .fetchRow) rfl rfl rfl _)
      fun row => ?_)
    cases row with
    | none => exact steps_pure r
    | some row => exact steps_bind (steps_acceptRow q columns r row) fun r' => ih r'

theorem steps_closeSet (q : Query) (columns : List Column) (r : Reading)
    (stats : StatementStats) (elapsed : Duration) :
    Steps (following last) (closeSet p.logged q columns r stats elapsed false) := by
  unfold closeSet
  dsimp only
  split
  · simp at *
  · split
    · exact steps_stream _
    · exact steps_pure ()

theorem keeps_closeSet (q : Query) (columns : List Column) (r : Reading)
    (stats : StatementStats) (elapsed : Duration) (last : Bool) :
    Keeps (following last) (closeSet p.logged q columns r stats elapsed last) := by
  cases last with
  | true => exact keeps_close _ _
  | false => exact (steps_closeSet q columns r stats elapsed).keeps

theorem steps_takeSet (q : Query) (sql : String) :
    Steps (following last) (takeSet p.logged q sql) := by
  have hcount : ∀ stats : StatementStats,
      Steps (following last) (Task.update (Task.count stats) : Run (Log × ω) Unit) := by
    intro stats
    refine steps_modify fun s => ⟨[], [], ⟨.silent (by simp [Session.log]) rfl rfl rfl
      (by simp [Log.taken]), rfl, rfl, id, by simp⟩, by simp, ⟨rfl, by simp, by simp⟩,
      fun hk _ => ⟨hk, rfl⟩⟩
  exact steps_bind (steps_valueOr (d := .columns) rfl rfl rfl _ _) fun columns =>
    steps_bind (steps_readRows q sql columns _ _) fun _ =>
    steps_bind (steps_bind (steps_valueOr (d := .stats) rfl rfl rfl _ _) fun stats =>
      steps_bind (hcount stats) fun _ =>
      steps_bind (steps_vital (d := .nextResult) rfl rfl rfl _) fun _ => steps_pure _)
      fun _ => steps_pure _

theorem keeps_readSets (q : Query) (sql : String) (last : Bool) (started patience : Nat) :
    Keeps (following last) (readSets p.logged q sql last started patience) := by
  induction patience with
  | zero => exact steps_hang.keeps
  | succ patience ih =>
    rw [readSets_succ]
    refine keeps_bind (steps_takeSet q sql) fun (columns, r, stats, more) =>
      keeps_bind (steps_now _) fun t => ?_
    -- only a set with none after it may close the task
    cases more with
    | true =>
      rw [Bool.not_true, Bool.and_false]
      exact keeps_bind (steps_closeSet q columns r stats _) fun _ => ih
    | false =>
      rw [Bool.not_false, Bool.and_true]
      exact keeps_bind_pure (keeps_closeSet q columns r stats _ last) ()

/-- An attempt at a statement, with what the log shows of it. -/
structure Attempted (sql : String) (params : List Value) (last : Bool) (x : Except Stop Unit)
    (new : Log) (es : List Event) (s s' : Session (Log × ω)) : Prop extends Reads new es s s' where
  entries : ∃ rest, new = .called (.execute sql params) :: rest ∧
    ∀ d ∈ Log.calls rest, d.isFollowUp = true
  leavesOpen : LeavesOpen last x → Stays es s s'
  accounted : s.killed = false → Log.Calm new → s'.killed = false ∧ Accounted x (Log.faults new)

theorem attemptStatement_attempted (p : Parties ω) (q : Query) (sql : String) (last : Bool)
    (s : Session (Log × ω)) :
    ∃ new es, Attempted sql q.params last (attemptStatement p.logged q sql last s).1 new es s
      (attemptStatement p.logged q sql last s).2 := by
  rw [attemptStatement, now_bind_apply, bind_apply]
  generalize hexecute : p.logged.backend.execute sql q.params = m
  obtain rfl : m = (p.backend.execute sql q.params).logged (.execute sql q.params) := hexecute.symm
  obtain ⟨new, ht⟩ := party_logged p (.execute sql q.params) (p.backend.execute sql q.params) s
  have hentries : ∃ rest, new = .called (.execute sql q.params) :: rest ∧ Log.calls rest = [] := by
    obtain ⟨asides, hside, rfl | ⟨_, rfl⟩⟩ := ht.entries
    · exact ⟨_, rfl, by simp [Log.calls_asides hside]⟩
    · exact ⟨_, rfl, Log.calls_asides hside⟩
  obtain ⟨rest, rfl, hrest⟩ := hentries
  rcases hr : party p.logged ((p.backend.execute sql q.params).logged (.execute sql q.params)) s
    with ⟨(e | c | _) | _, s₁⟩ <;> rw [hr] at ht
  · exact ⟨_, [], .ofTurned ht rfl, ⟨rest, rfl, by simp [hrest]⟩, fun _ => .ofTurned ht,
      fun hk hc => ⟨ht.unkilled hc hk, ht.faults⟩⟩
  · exact ⟨_, [], .ofTurned ht rfl, ⟨rest, rfl, by simp [hrest]⟩, fun h => h.elim,
      fun _ hc => absurd hc ht.not_calm⟩
  · exact ⟨_, [], .ofTurned ht rfl, ⟨rest, rfl, by simp [hrest]⟩, fun h => h.elim,
      fun hk hc => ⟨ht.unkilled hc hk, trivial⟩⟩
  · have hread := keeps_readSets (p := p) q sql last (p.logged.clock s.outside) p.patience s₁
    obtain ⟨new', es, hreads, hcalls, hopen, hacc⟩ := hread
    have hmap : ∀ x : Except Stop Unit, x.map (fun _ => ()) = x := fun x => by cases x <;> rfl
    rw [hmap] at hopen hacc
    refine ⟨_, _, (Reads.ofTurned ht rfl).append hreads, ⟨rest ++ new', rfl, ?_⟩, fun hx =>
      (Stays.ofTurned ht).append (hopen hx) hreads.streamed, fun hk hc => ?_⟩
    · rw [Log.calls_append, hrest, List.nil_append]
      exact hcalls
    · obtain ⟨hk', hx⟩ := hacc (ht.unkilled hc.left hk) hc.right
      exact ⟨hk', by rw [Log.faults_append]; exact hx.after ht.faults⟩

end Query
end DatabaseSession
