import DatabaseSession.Service
import DatabaseSession.Proofs.Blame

namespace DatabaseSession

def ConnectionNotice.attempt : ConnectionNotice → Attempt
  | .connecting attempt | .connected attempt | .failed attempt _ => attempt

def Attempt.isAutomatic : Attempt → Bool
  | .reconnect .automatic => true
  | _ => false

namespace Duty

/-- What belongs to a connect attempt of this kind. -/
def isConnecting (kind : Attempt → Bool) : Duty → Bool
  | .connect _ | .disconnect | .onConnect _ | .onConnected _ | .onFailed _ _ => true
  | .notice _ n => kind n.attempt
  | _ => false

/-- What running a statement and reading its results asks of the backend. -/
def isReading : Duty → Bool
  | .execute _ _ | .columns | .fetchRow | .nextResult | .stats => true
  | _ => false

def isSchema : Duty → Bool
  | .currentSchema | .setCurrentSchema _ => true
  | _ => false

end Duty

namespace Course

variable {ω : Type}

/-- Whoever is called on for the duty, and whatever comes of it, the course is kept. -/
def Permits (c : Course (Log × ω)) (p : Parties ω) (d : Duty) : Prop :=
  ∀ {α : Type} (m : Play ω α), Run.Follows c (Run.party p.logged (m.logged d))

open Session in
theorem permits_of {c : Course (Log × ω)} {p : Parties ω} {d : Duty}
    (h : ∀ {x new s s'}, Turned d x new s s' → c.Allows x s s') : c.Permits p d := by
  intro α m s
  obtain ⟨new, ht⟩ := Run.party_logged p d m s
  have hx := h ht
  rcases hr : Run.party p.logged (m.logged d) s with ⟨(_ | _ | _) | _, s'⟩ <;> rw [hr] at hx <;>
    exact hx

end Course

namespace Link

open Run

variable {ω : Type} {c : Course (Log × ω)} {p : Parties ω} {kind : Attempt → Bool}

/-- The course covers connect attempts of this kind. -/
structure Covers (c : Course (Log × ω)) (p : Parties ω) (kind : Attempt → Bool) : Prop where
  permits : ∀ d, d.isConnecting kind = true → c.Permits p d
  counts : ∀ s, c.Goes s { s with link := { s.link with reconnects := s.link.reconnects + 1 } }

theorem follows_announce {n : ConnectionNotice} (h : ∀ i, c.Permits p (.notice i n)) :
    Follows c (announce p.logged n) := by
  refine follows_forM _ fun observe hobs => follows_shielded ?_
  obtain ⟨i, hi, rfl⟩ := List.mem_mapIdx.mp hobs
  exact h i _

theorem follows_hooks {f : Hook (Log × ω) → Run (Log × ω) Unit}
    (h : ∀ i hook, Follows c (f (Hook.logged i hook))) : Follows c (p.logged.hooks.forM f) := by
  refine follows_forM _ fun hook hhook => ?_
  obtain ⟨i, hi, rfl⟩ := List.mem_mapIdx.mp hhook
  exact h i _

theorem follows_establish (h : Covers c p kind) : Follows c (establish p.logged) := by
  refine follows_bind follows_get fun s => follows_bind (h.permits (.connect _) rfl _) fun _ => ?_
  exact follows_hooks fun i hook => h.permits (.onConnected i) rfl _

theorem follows_tryConnect (h : Covers c p kind) {attempt : Attempt} (hkind : kind attempt = true) :
    Follows c (tryConnect p.logged attempt) := by
  have hnotice : ∀ n : ConnectionNotice, n.attempt = attempt → Follows c (announce p.logged n) :=
    fun n hn => follows_announce fun i =>
      h.permits (.notice i n) (by rw [Duty.isConnecting, hn, hkind])
  refine follows_bind (follows_hooks fun i hook => follows_always (h.permits (.onConnect i) rfl _))
    fun _ => follows_bind (hnotice _ rfl) fun _ =>
      follows_bind (follows_attempt (follows_establish h)) fun r => ?_
  cases r with
  | ok _ => exact hnotice _ rfl
  | error e =>
    refine follows_bind (follows_hooks fun i hook => ?_) fun _ =>
      follows_bind (hnotice _ rfl) fun _ => follows_raise e
    exact follows_always (h.permits (.onFailed i e) rfl _)

theorem follows_reconnectOnce (h : Covers c p kind) {cause : ReconnectCause}
    (hkind : kind (.reconnect cause) = true) : Follows c (reconnectOnce p.logged cause) :=
  follows_bind (follows_always (h.permits .disconnect rfl _)) fun _ =>
    follows_bind (follows_tryConnect h hkind) fun _ => follows_modify h.counts

theorem follows_reconnectUpTo (h : Covers c p kind) {cause : ReconnectCause}
    (hkind : kind (.reconnect cause) = true) (more : Nat) :
    Follows c (reconnectUpTo p.logged cause more) := by
  induction more with
  | zero => exact follows_reconnectOnce h hkind
  | succ more ih =>
    refine follows_bind (follows_attempt (follows_reconnectOnce h hkind)) fun r => ?_
    cases r with
    | ok _ => exact follows_pure ()
    | error _ => exact ih

theorem follows_ensureHeld : Follows c (ensureHeld : Run (Log × ω) Unit) := by
  refine follows_bind follows_get fun s => ?_
  split
  · exact follows_raise _
  · exact follows_pure ()

theorem follows_reconnect (h : Covers c p kind) {cause : ReconnectCause}
    (hkind : kind (.reconnect cause) = true) : Follows c (reconnect p.logged cause) :=
  follows_bind follows_ensureHeld fun _ =>
    follows_bind follows_get fun _ => follows_reconnectUpTo h hkind _

theorem follows_connect (h : Covers c p kind) (hkind : kind .opening = true) :
    Follows c (connect p.logged) :=
  follows_bind follows_ensureHeld fun _ => follows_tryConnect h hkind

theorem follows_restore (h : Covers c p kind) (hkind : kind (.reconnect .automatic) = true) :
    Follows c (restore p.logged) := by
  refine follows_bind follows_get fun s => ?_
  split
  · refine follows_bind (follows_attempt (follows_reconnect h hkind)) fun r => ?_
    cases r <;> exact follows_pure _
  · exact follows_pure false

end Link

namespace Task

open Run

variable {ω : Type} {c : Course (Log × ω)} {p : Parties ω}

structure SameAccount (t t' : Task) : Prop where
  work : t'.work = t.work
  courier : t'.courier = t.courier
  lastError : t'.stats.lastError = t.stats.lastError
  cancelled : t'.stats.cancelled = t.stats.cancelled
  streamed : t'.streamed = t.streamed

/-- Rows go out, and it is marked that they do. -/
def stream (p : Parties ω) (chunk : Chunk) : Run ω Unit := do
  update fun t => { t with streamed := true }
  emit p .pending none (some (.rows chunk)) none

def markStreamed (s : Session ω) : Session ω :=
  { s with active := { s.active with streamed := true } }

theorem stream_apply (p : Parties ω) (chunk : Chunk) (s : Session ω) :
    stream p chunk s = emit p .pending none (some (.rows chunk)) none (markStreamed s) := rfl

end Task

namespace Query

open Run

variable {ω : Type} {c : Course (Log × ω)} {p : Parties ω}

/-- The course covers the reading of rows. -/
structure Fetches (c : Course (Log × ω)) (p : Parties ω) : Prop where
  reading : ∀ d, d.isReading = true → c.Permits p d
  streams : ∀ chunk, Follows c (Task.stream p.logged chunk)
  updates : ∀ s t, Task.SameAccount s.active t → c.Goes s { s with active := t }

/-- The course covers an attempt at a statement. -/
structure Covers (c : Course (Log × ω)) (p : Parties ω) : Prop
    extends toFetching : Fetches c p where
  endsWell : ∀ message data, Follows c (Task.emit p.logged .ok message data none)

theorem Fetches.follows_update (h : Fetches c p) {f : Task → Task}
    (hf : ∀ t, Task.SameAccount t (f t)) : Follows c (Task.update f) :=
  follows_modify fun s => h.updates s _ (hf _)

theorem follows_stream (h : ∀ chunk, Follows c (Task.stream p.logged chunk)) (chunk : Chunk)
    {α : Type} {m : Run (Log × ω) α} (hm : Follows c m) :
    Follows c (do
      Task.update fun t => { t with streamed := true }
      Task.emit p.logged .pending none (some (.rows chunk)) none
      m) := by
  have h := follows_bind (h chunk) fun _ => hm
  rw [Task.stream, bind_assoc] at h
  exact h

end Query

namespace Task

open Run

variable {ω : Type} {c : Course (Log × ω)} {p : Parties ω}

/-- The course covers all that running a query or a schema task does. -/
structure Covers (c : Course (Log × ω)) (p : Parties ω) : Prop
    extends toConnecting : Link.Covers c p Attempt.isAutomatic, toReading : Query.Covers c p where
  schema : ∀ d, d.isSchema = true → c.Permits p d
  endsInError : ∀ e, Follows c (endInError p.logged e)
  restarts : ∀ s, c.Goes s { s with active := { s.active with streamed := false } }

end Task

/-- A statement was run from the one state to the other and lost the connection. -/
inductive Query.Loses {ω : Type} (p : Parties ω) (s s' : Session (Log × ω)) : Prop where
  | intro {q : Query} {sql : String} {last : Bool} {e : Error}
      (hrun : attemptStatement p.logged q sql last s = (.error (.error e), s'))
      (hlost : e.losesConnection = true)

namespace Task

open Run

variable {ω : Type} {c : Course (Log × ω)} {p : Parties ω}

/-- The same with the restoring of a lost connection as a whole, whatever becomes of its parts. -/
structure Carries (c : Course (Log × ω)) (p : Parties ω) : Prop
    extends toReading : Query.Covers c p where
  restores : ∀ {s₀ s : Session (Log × ω)}, Query.Loses p s₀ s → c.Goes s₀ s →
    c.Allows (Link.restore p.logged s).1 s₀ (Link.restore p.logged s).2
  schema : ∀ d, d.isSchema = true → c.Permits p d
  endsInError : ∀ e, Follows c (endInError p.logged e)
  restarts : ∀ s, c.Goes s { s with active := { s.active with streamed := false } }

theorem Covers.carries (h : Covers c p) : Carries c p :=
  ⟨h.toReading, fun _ hgoes => (Link.follows_restore h.toConnecting rfl _).after hgoes, h.schema,
    h.endsInError, h.restarts⟩

theorem follows_clockOff (h : Query.Covers c p) (started : Nat) :
    Follows c (clockOff p.logged started) :=
  follows_bind (follows_now _) fun _ =>
    h.follows_update fun _ => ⟨rfl, rfl, rfl, rfl, rfl⟩

end Task

namespace Query

open Run

variable {ω : Type} {c : Course (Log × ω)} {p : Parties ω}

theorem follows_acceptRow (h : ∀ chunk, Follows c (Task.stream p.logged chunk)) (q : Query)
    (columns : List Column) (r : Reading) (row : Row) :
    Follows c (acceptRow p.logged q columns r row) := by
  unfold acceptRow
  cases q.shape with
  | rows =>
    dsimp only
    split
    · exact follows_stream h _ (follows_pure _)
    · exact follows_pure _
  | oneField => exact follows_pure _
  | oneFieldList => exact follows_pure _

theorem follows_unlessKilled {α : Type} (sql : String) {m : Run (Log × ω) α} (hm : Follows c m) :
    Follows c (do
      if (← get).killed then Run.raise (Error.killed (some sql))
      m) := by
  refine follows_bind follows_get fun s => ?_
  split
  · exact follows_bind (follows_raise _) fun _ => hm
  · exact hm

theorem follows_readRows (h : Fetches c p) (hstuck : ∀ s, c.Sticks s s) (q : Query)
    (sql : String) (columns : List Column) (patience : Nat) (r : Reading) :
    Follows c (readRows p.logged q sql columns patience r) := by
  induction patience generalizing r with
  | zero => exact follows_hang hstuck
  | succ patience ih =>
    refine follows_unlessKilled sql (follows_bind (h.reading .fetchRow rfl _) fun row => ?_)
    cases row with
    | none => exact follows_pure r
    | some row => exact follows_bind (follows_acceptRow h.streams q columns r row) fun r' => ih r'

theorem follows_endWell (h : Covers c p) (chunk : Chunk) (value : Option Json) :
    Follows c (endWell p.logged chunk value) := h.endsWell _ _

theorem follows_closeSet (h : ∀ chunk, Follows c (Task.stream p.logged chunk)) {final : Bool}
    (hend : final = true → ∀ message data, Follows c (Task.emit p.logged .ok message data none))
    (q : Query) (columns : List Column) (r : Reading) (stats : StatementStats)
    (elapsed : Duration) : Follows c (closeSet p.logged q columns r stats elapsed final) := by
  unfold closeSet
  dsimp only
  split
  · next hfinal => exact hend hfinal _ _
  · split
    · exact h _
    · exact follows_pure ()

theorem follows_endSet (h : Fetches c p) : Follows c (endSet p.logged) :=
  follows_bind (follows_valueOr _ (h.reading .stats rfl _)) fun _ =>
    follows_bind (h.follows_update fun _ => ⟨rfl, rfl, rfl, rfl, rfl⟩) fun _ =>
    follows_bind (h.reading .nextResult rfl _) fun _ => follows_pure _

theorem follows_takeSet (h : Fetches c p) (hstuck : ∀ s, c.Sticks s s) (q : Query)
    (sql : String) : Follows c (takeSet p.logged q sql) :=
  follows_bind (follows_valueOr _ (h.reading .columns rfl _)) fun columns =>
    follows_bind (follows_readRows h hstuck q sql columns _ _) fun _ =>
    follows_bind (follows_endSet h) fun _ => follows_pure _

section

variable (h : Fetches c p) (hstuck : ∀ s, c.Sticks s s) {q : Query}
  (hclose : ∀ columns r stats elapsed final,
    Follows c (closeSet p.logged q columns r stats elapsed final))

include h hstuck hclose

theorem follows_readSet_of (sql : String) (last : Bool) (started : Nat) :
    Follows c (readSet p.logged q sql last started) :=
  follows_bind (follows_takeSet h hstuck q sql) fun (columns, r, stats, more) =>
    follows_bind (follows_now _) fun _ =>
    follows_bind (hclose columns r stats _ _) fun _ => follows_pure more

theorem follows_readSets_of (sql : String) (last : Bool) (started patience : Nat) :
    Follows c (readSets p.logged q sql last started patience) := by
  induction patience with
  | zero => exact follows_hang hstuck
  | succ patience ih =>
    refine follows_bind (follows_readSet_of h hstuck hclose sql last started) fun more => ?_
    split
    · exact ih
    · exact follows_pure ()

end

theorem follows_readSets (h : Covers c p) (hstuck : ∀ s, c.Sticks s s) (q : Query)
    (sql : String) (last : Bool) (started patience : Nat) :
    Follows c (readSets p.logged q sql last started patience) :=
  follows_readSets_of h.toFetching hstuck
    (fun columns r stats elapsed _ =>
      follows_closeSet h.streams (fun _ => h.endsWell) q columns r stats elapsed)
    sql last started patience

theorem follows_attemptStatement (h : Fetches c p) (q : Query) (sql : String) (last : Bool)
    (hread : ∀ started, Follows c (readSets p.logged q sql last started p.patience)) :
    Follows c (attemptStatement p.logged q sql last) :=
  follows_bind (follows_now _) fun started =>
    follows_bind (h.reading (.execute sql q.params) rfl _) fun _ => hread started

theorem allows_afterFailure {e : Error} {s₀ s : Session (Log × ω)} (hgoes : c.Goes s₀ s)
    (h : e.losesConnection = true →
      c.Allows (Link.restore p.logged s).1 s₀ (Link.restore p.logged s).2)
    (sql : String) (again : Option (Run (Log × ω) Unit))
    (hagain : ∀ retry ∈ again, Follows c retry) :
    c.Allows (afterFailure p.logged sql e again s).1 s₀
      (afterFailure p.logged sql e again s).2 := by
  unfold afterFailure
  rw [get_bind_apply]
  split
  · exact hgoes
  · cases again with
    | none => exact hgoes
    | some retry =>
      dsimp only
      split
      · next hlost =>
        refine allows_bind (h (Bool.and_eq_true_iff.mp hlost).1) fun back => ?_
        split
        · exact hagain retry rfl
        · exact follows_raise e
      · exact hgoes

theorem follows_afterFailure (h : Follows c (Link.restore p.logged)) (sql : String) (e : Error)
    (again : Option (Run (Log × ω) Unit)) (hagain : ∀ retry ∈ again, Follows c retry) :
    Follows c (afterFailure p.logged sql e again) :=
  fun s => allows_afterFailure (c.refl s) (fun _ => h s) sql again hagain

end Query

section

open Run

variable {ω : Type} {c : Course (Log × ω)} {p : Parties ω}

namespace Query

/-- The course covers what a query does about its statements, but for how it ends. -/
structure Resumes (c : Course (Log × ω)) (p : Parties ω) : Prop
    extends toFetching : Fetches c p where
  restores : ∀ {s₀ s : Session (Log × ω)}, Loses p s₀ s → c.Goes s₀ s →
    c.Allows (Link.restore p.logged s).1 s₀ (Link.restore p.logged s).2
  restarts : ∀ s, c.Goes s { s with active := { s.active with streamed := false } }

namespace Resumes

/-- The connection is restored where the statement has just lost it. -/
theorem follows_attemptStatement_bind (h : Resumes c p) (q : Query) (sql : String) (last : Bool)
    (hread : ∀ started, Follows c (readSets p.logged q sql last started p.patience))
    (again : Option (Run (Log × ω) Unit)) (hagain : ∀ retry ∈ again, Follows c retry)
    {f : Except Error Unit → Run (Log × ω) Unit} (hok : f (.ok ()) = pure ())
    (herr : ∀ e, f (.error e) = afterFailure p.logged sql e again) :
    Follows c (attempt (attemptStatement p.logged q sql last) >>= f) := by
  intro s
  have hs := follows_attemptStatement h.toFetching q sql last hread s
  rw [bind_apply, attempt]
  rcases hr : attemptStatement p.logged q sql last s with ⟨(e | q | _) | _, s₁⟩ <;>
    rw [hr] at hs <;> dsimp only
  · rw [herr]
    exact allows_afterFailure hs (fun hlost => h.restores (.intro hr hlost) hs) sql again hagain
  · exact hs
  · exact hs
  · rw [hok]
    exact hs

theorem follows_runWithRetries (h : Resumes c p) (q : Query) (sql : String) (last : Bool)
    (hread : ∀ started, Follows c (readSets p.logged q sql last started p.patience))
    (retries : Nat) : Follows c (Query.runWithRetries p.logged q sql last retries) := by
  induction retries with
  | zero => exact h.follows_attemptStatement_bind q sql last hread none (by simp) rfl fun _ => rfl
  | succ retries ih =>
    exact h.follows_attemptStatement_bind q sql last hread _ (by simpa using ih) rfl fun _ => rfl

theorem follows_runStatements (h : Resumes c p) (q : Query)
    (hread : ∀ sql last started, Follows c (readSets p.logged q sql last started p.patience))
    (statements : List String) : Follows c (Query.runStatements p.logged q statements) := by
  induction statements with
  | nil => exact follows_pure ()
  | cons sql rest ih =>
    exact follows_bind (follows_modify h.restarts) fun _ =>
      follows_bind follows_get fun s =>
      follows_bind (h.follows_runWithRetries q sql _ (hread sql _) _) fun _ => ih

end Resumes
end Query

namespace Task.Carries

theorem resumes (h : Carries c p) : Query.Resumes c p := ⟨h.toFetching, h.restores, h.restarts⟩

theorem follows_runWithRetries (h : Carries c p) (q : Query) (sql : String) (last : Bool)
    (hread : ∀ started, Follows c (Query.readSets p.logged q sql last started p.patience))
    (retries : Nat) : Follows c (Query.runWithRetries p.logged q sql last retries) :=
  h.resumes.follows_runWithRetries q sql last hread retries

theorem follows_runStatements (h : Carries c p) (q : Query)
    (hread : ∀ sql last started, Follows c (Query.readSets p.logged q sql last started p.patience))
    (statements : List String) : Follows c (Query.runStatements p.logged q statements) :=
  h.resumes.follows_runStatements q hread statements

theorem follows_run (h : Carries c p) (q : Query)
    (hread : ∀ sql last started,
      Follows c (Query.readSets p.logged q sql last started p.patience)) :
    Follows c (q.run p.logged) := by
  unfold Query.run
  split
  · exact Query.follows_endWell h.toReading _ _
  · exact h.follows_runStatements q hread _

end Task.Carries
end

namespace Query

open Run

variable {ω : Type} {c : Course (Log × ω)} {p : Parties ω}

theorem follows_runWithRetries (h : Task.Covers c p) (q : Query) (sql : String) (last : Bool)
    (hread : ∀ started, Follows c (readSets p.logged q sql last started p.patience))
    (retries : Nat) : Follows c (runWithRetries p.logged q sql last retries) :=
  h.carries.follows_runWithRetries q sql last hread retries

theorem follows_runStatements (h : Task.Covers c p) (q : Query)
    (hread : ∀ sql last started, Follows c (readSets p.logged q sql last started p.patience))
    (statements : List String) : Follows c (runStatements p.logged q statements) :=
  h.carries.follows_runStatements q hread statements

theorem follows_run (h : Task.Covers c p) (q : Query)
    (hread : ∀ sql last started, Follows c (readSets p.logged q sql last started p.patience)) :
    Follows c (q.run p.logged) :=
  h.carries.follows_run q hread

end Query

namespace Work

def isBuiltIn : Work → Bool
  | .query _ | .schema _ => true
  | .custom _ => false

end Work

namespace Task

open Run

variable {ω α : Type} {c : Course (Log × ω)} {p : Parties ω}

theorem Carries.follows_runSchema (h : Carries c p) (action : SchemaRequest) :
    Follows c (runSchema p.logged action) := by
  have hread : Follows c (valueOr none (party p.logged p.logged.backend.currentSchema)) :=
    follows_valueOr none (h.schema .currentSchema rfl _)
  cases action with
  | current => exact hread
  | setCurrent schema =>
    exact follows_bind (h.schema (.setCurrentSchema schema) rfl _) fun _ => hread

theorem follows_announce {phase : Milestone} {requestId : Option String}
    (h : ∀ i, c.Permits p (.milestone i phase requestId)) :
    Follows c (announce p.logged phase requestId) := by
  refine follows_forM _ fun observe hobs => follows_shielded ?_
  obtain ⟨i, hi, rfl⟩ := List.mem_mapIdx.mp hobs
  exact h i _

/-- The end of a task that has begun: the clock stops, and an error ends it. -/
def conclude (p : Parties ω) (started : Nat) (m : Run ω α) (finish : α → Run ω Unit) :
    Run ω Unit := do
  let r ← attempt m
  clockOff p started
  match r with
  | .ok a => finish a
  | .error e => endInError p e

/-- What a task does once it has sent its first event. -/
def pursue (p : Parties ω) (started : Nat) : Work → Run ω Unit
  | .query q => conclude p started (q.run p) fun _ => pure ()
  | .schema action => conclude p started (runSchema p action) fun schema =>
      emit p .ok none (some (.result (Json.ofOption .string schema))) none
  | .custom _ => pure ()

theorem execute_builtIn (p : Parties ω) (s : Session ω) (h : s.active.work.isBuiltIn = true) :
    execute p s = (do
      let started ← now p
      emit p .pending (some startedMessage) none none
      pursue p started s.active.work) s := by
  unfold execute
  rw [get_bind_apply]
  cases hw : s.active.work with
  | query q =>
    refine congrFun (bind_congr fun started => bind_congr fun _ => bind_congr fun r =>
      bind_congr fun _ => ?_) s
    cases r <;> rfl
  | schema action =>
    refine congrFun (bind_congr fun started => bind_congr fun _ => bind_congr fun r =>
      bind_congr fun _ => ?_) s
    cases r <;> rfl
  | custom key => simp [hw, Work.isBuiltIn] at h

theorem Carries.follows_conclude (h : Carries c p) (started : Nat) {m : Run (Log × ω) α}
    {finish : α → Run (Log × ω) Unit} (hm : Follows c m) (hfinish : ∀ a, Follows c (finish a)) :
    Follows c (conclude p.logged started m finish) := by
  refine follows_bind (follows_attempt hm) fun r =>
    follows_bind (follows_clockOff h.toReading started) fun _ => ?_
  cases r with
  | ok a => exact hfinish a
  | error e => exact h.endsInError e

theorem follows_conclude (h : Covers c p) (started : Nat) {m : Run (Log × ω) α}
    {finish : α → Run (Log × ω) Unit} (hm : Follows c m) (hfinish : ∀ a, Follows c (finish a)) :
    Follows c (conclude p.logged started m finish) :=
  h.carries.follows_conclude started hm hfinish

theorem Carries.follows_pursue (h : Carries c p) (hrun : ∀ q : Query, Follows c (q.run p.logged))
    (started : Nat) (w : Work) : Follows c (pursue p.logged started w) := by
  cases w with
  | query q => exact h.follows_conclude started (hrun q) fun _ => follows_pure ()
  | schema action =>
    exact h.follows_conclude started (h.follows_runSchema action) fun _ => h.endsWell _ _
  | custom key => exact follows_pure ()

theorem follows_pursue (h : Covers c p) (hrun : ∀ q : Query, Follows c (q.run p.logged))
    (started : Nat) (w : Work) : Follows c (pursue p.logged started w) :=
  h.carries.follows_pursue hrun started w

/-- Runs the active task or cancels it; a panic in it ends it in an error. -/
def undertake (p : Parties ω) (cancelled : Bool) : Run ω Unit := do
  match ← guarded (if cancelled then cancel p else execute p) with
  | .ok () => pure ()
  | .error q => shielded (fail p (panicError q))

/-- The session's statistics become those of the task. -/
def account (p : Parties ω) : Run ω Unit := do
  let stats ← onPanic (report p) (modify fun s => { s with statsHeld := false })
  modify fun s => { s with stats := LastRunStats.ofRun stats, statsHeld := false }

def takeUp (t : Task) (s : Session ω) : Session ω :=
  { s with registry := (s.registry.beginOptional t.requestId).2, killed := false, active := t }

/-- Whether a task would be cancelled and not run. -/
def marked (t : Task) (s : Session ω) : Bool := (s.registry.beginOptional t.requestId).1

def holdStats (s : Session ω) : Session ω := { s with statsHeld := true }

theorem perform_eq (p : Parties ω) (t : Task) (s : Session ω) :
    perform p t s = (do
      announce p .started t.requestId
      modify holdStats
      undertake p (marked t s)
      account p
      announce p .finished t.requestId) (takeUp t s) := by
  unfold perform undertake account
  simp only [bind_assoc]
  change (announce p .started t.requestId >>= fun _ => modify holdStats >>= fun _ =>
    guarded (if marked t s then cancel p else execute p) >>= _) (takeUp t s) = _
  refine congrFun (bind_congr fun _ => bind_congr fun _ => bind_congr fun r => ?_) (takeUp t s)
  cases r <;> rfl

end Task
end DatabaseSession
