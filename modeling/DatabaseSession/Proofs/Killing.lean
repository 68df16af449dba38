import DatabaseSession.Session.Calls
import DatabaseSession.Proofs.Retries

namespace DatabaseSession

open Course Run Session

namespace Entry

/-- Where the kill switch stands after the entry. -/
def switch : Entry → Bool → Bool
  | .asked _ .kill _, _ => true
  | .asked _ (.execute _) _, _ => false
  | _, b => b

/-- Whoever asks about the kill switch is told where it stands. -/
def TellsSwitch (b : Bool) : Entry → Prop
  | .asked _ .isKilled a => a = .flag b
  | _ => True

end Entry

namespace Log

/-- The entries lead from one position of the kill switch to the other, and whoever asks about it in
between is told. -/
inductive Switches : Bool → Log → Bool → Prop where
  | nil (b : Bool) : Switches b [] b
  | cons {e : Entry} {log : Log} {b b' : Bool} (he : e.TellsSwitch b)
      (h : Switches (e.switch b) log b') : Switches b (e :: log) b'

namespace Switches

variable {a b c : Bool} {log log' : Log}

theorem append (h : Switches a log b) (h' : Switches b log' c) : Switches a (log ++ log') c := by
  induction h with
  | nil => exact h'
  | cons he _ ih => exact .cons he (ih h')

theorem of_append (h : Switches a (log ++ log') c) :
    ∃ b, Switches a log b ∧ Switches b log' c := by
  induction log generalizing a with
  | nil => exact ⟨a, .nil a, h⟩
  | cons e log ih =>
    cases h with
    | cons he h =>
      obtain ⟨b, hlog, hlog'⟩ := ih h
      exact ⟨b, .cons he hlog, hlog'⟩

theorem stays_on (h : Switches true log b)
    (hexecute : ∀ thread t a, .asked thread (.execute t) a ∉ log) :
    b = true ∧ ∀ thread a, .asked thread .isKilled a ∈ log → a = .flag true := by
  induction log with
  | nil =>
    cases h
    exact ⟨rfl, by simp⟩
  | cons e log ih =>
    cases h with
    | cons he h =>
      have hon : e.switch true = true := by
        unfold Entry.switch
        split
        · rfl
        · exact absurd List.mem_cons_self (hexecute _ _ _)
        · rfl
      rw [hon] at h
      obtain ⟨hb, htold⟩ := ih h fun thread t a hmem => hexecute thread t a (.tail _ hmem)
      refine ⟨hb, fun thread a hmem => ?_⟩
      rcases List.mem_cons.mp hmem with rfl | hmem
      · exact he
      · exact htold thread a hmem

/-- After a kill that no new query lifts the switch is on. -/
theorem on_after_kill {before after : Log} {thread : Thread} {x : Answer}
    (h : Switches a (before ++ .asked thread .kill x :: after) b)
    (hexecute : ∀ thread t x, .asked thread (.execute t) x ∉ after) :
    b = true ∧ ∀ thread x, .asked thread .isKilled x ∈ after → x = .flag true := by
  obtain ⟨c, -, hkill⟩ := h.of_append
  cases hkill with
  | cons _ hafter => exact hafter.stays_on hexecute

end Switches
end Log

variable {ω α : Type}

/-- The course on which the log tells where the kill switch stands. A call that waits for ever may
still have thrown it. -/
def Course.switching (ω : Type) : Course (Log × ω) :=
  .plain (fun s s' => ∃ new, s'.log = s.log ++ new ∧ Log.Switches s.killed new s'.killed)
    (fun s s' => ∃ new b, s'.log = s.log ++ new ∧ Log.Switches s.killed new b)
    (fun s => ⟨[], by simp, .nil _⟩)
    (by
      rintro a b c ⟨new, hlog, hnew⟩ ⟨new', hlog', hnew'⟩
      exact ⟨new ++ new', by rw [hlog', hlog, List.append_assoc], hnew.append hnew'⟩)
    (by
      rintro a b c ⟨new, hlog, hnew⟩ ⟨new', x, hlog', hnew'⟩
      exact ⟨new ++ new', x, by rw [hlog', hlog, List.append_assoc], hnew.append hnew'⟩)

namespace Course

variable {p : Parties ω} {s s' : Session (Log × ω)}

theorem switching_sticks (h : (switching ω).Goes s s') : (switching ω).Sticks s s' := by
  obtain ⟨new, hlog, hnew⟩ := h
  exact ⟨new, _, hlog, hnew⟩

theorem switching_same (hlog : s'.log = s.log) (hkilled : s'.killed = s.killed) :
    (switching ω).Goes s s' :=
  ⟨[], by simp [hlog], by rw [hkilled]; exact .nil _⟩

theorem switching_filed (h : Filed s s') : (switching ω).Goes s s' :=
  switching_same (congrArg Prod.fst h.outside) h.killed

theorem switching_noted {e : Entry} (htells : ∀ b, e.TellsSwitch b)
    (hswitch : ∀ b, e.switch b = b) : (switching ω).Goes s (s.note e) :=
  ⟨[e], rfl, .cons (htells _) (by rw [hswitch]; exact .nil _)⟩

theorem switching_kill (p : Parties ω) (thread : Thread) (s : Session (Log × ω)) :
    (switching ω).Goes s ((s.kill p.logged).note (.asked thread .kill .unit)) := by
  have hon : Log.Switches s.killed [.asked thread .kill .unit] true := .cons trivial (.nil true)
  cases hi : s.published.interrupter with
  | none => exact ⟨_, by simp [Session.log, kill, note, hi], hon⟩
  | some handle =>
    exact ⟨.interrupted handle :: [.asked thread .kill .unit],
      by simp [Session.log, kill, note, hi, Parties.logged], .cons trivial hon⟩

theorem switching_asked {thread : Thread} {call : Call} {a : Answer}
    (h : answer p.logged thread call s = (some a, s')) :
    (switching ω).Goes s (s'.note (.asked thread call a)) := by
  cases call with
  | kill =>
    cases h
    exact switching_kill p thread s
  | isKilled =>
    cases h
    exact ⟨[_], rfl, .cons rfl (.nil _)⟩
  | execute t =>
    have hfiled : Filed { s with killed := false } s' := by
      have hf := answerSubmission_filed { s with killed := false } t outcomeAnswer
      change ({ s with killed := false }.answerSubmission t outcomeAnswer) = (some a, s') at h
      rwa [h] at hf
    refine ⟨[.asked thread (.execute t) a], by simp [Session.log, note, hfiled.outside], ?_⟩
    have hoff : (s'.note (.asked thread (.execute t) a)).killed = false := hfiled.killed
    rw [hoff]
    exact .cons trivial (.nil false)
  | _ =>
    rcases answer_cases p.logged thread _ s with ⟨-, hf⟩ | ⟨t, ht, -⟩ | ⟨hk, -⟩ | ⟨name, -, ht⟩
    · rw [h] at hf
      exact (switching ω).trans (switching_filed hf)
        (switching_noted (fun _ => trivial) fun _ => rfl)
    · cases ht
    · cases hk
    · rw [h] at ht
      cases ht
      exact (switching ω).trans (switching_same rfl rfl)
        (switching_noted (fun _ => trivial) fun _ => rfl)

theorem switching_play (p : Parties ω) (d : Duty) (t : Turn ω α) (s : Session (Log × ω)) :
    (switching ω).Allows (play p.logged (t.logged d s.log) s).1 s
      (play p.logged (t.logged d s.log) s).2 := by
  induction t generalizing s with
  | done x w =>
    have hout : (switching ω).Goes s { s with outside := (s.log, w) } := switching_same rfl rfl
    have hback := (switching ω).trans hout
      (switching_noted (e := .returned d (x.map fun _ => ())) (fun _ => trivial) fun _ => rfl)
    exact allows_of_panics hback (switching_sticks hback)
  | ask thread call w next ih =>
    have hout : (switching ω).Goes s { s with outside := (s.log, w) } := switching_same rfl rfl
    simp only [Turn.logged, play]
    rcases ha : answer p.logged thread call { s with outside := (s.log, w) } with ⟨_ | a, s₁⟩
    · -- nobody is told any more where the switch stands
      have hi := unanswered_interlude p thread call _ s₁ ha
      exact (switching ω).sticks hout ⟨[], _, hi.log, .nil _⟩
    · have hrest := ih a s₁.outside.2 (s₁.note (.asked thread call a))
      rw [log_note, note, play_outside] at hrest
      exact hrest.after ((switching ω).trans hout (switching_asked ha))

theorem switching_permits (p : Parties ω) (d : Duty) : (switching ω).Permits p d := by
  intro α m s
  have hplay := switching_play p d (m s.outside.2) (s.note (.called d))
  rw [log_note, note, play_outside] at hplay
  exact hplay.after (switching_noted (fun _ => trivial) fun _ => rfl)

end Course

namespace Task

theorem switching_hand (p : Parties ω) (sink : Sink) (event : Event) :
    Follows (switching ω) (hand p.logged sink event) := by
  cases sink with
  | discard => exact follows_pure ()
  | channel inbox =>
    exact follows_modify fun s => ⟨_, rfl, .cons trivial (.cons trivial (.nil _))⟩
  | callback key => exact follows_always (switching_permits p _ _)

theorem switching_emit (p : Parties ω) (state : Progress) (message : Option String)
    (data : Option EventData) (error : Option ErrorReport) :
    Follows (switching ω) (emit p.logged state message data error) := by
  intro s
  cases hterm : s.active.courier.terminal with
  | some st =>
    rw [emit_closed _ _ _ _ _ s (by simp [hterm])]
    exact (switching ω).refl s
  | none =>
    rw [emit_open _ _ _ _ _ s hterm]
    exact (switching_hand p _ _ _).after (switching_same rfl rfl)

theorem switching_endInError (p : Parties ω) (e : Error) :
    Follows (switching ω) (endInError p.logged e) := by
  intro s
  cases hterm : s.active.courier.terminal with
  | some st =>
    rw [endInError_closed _ e s (by simp [hterm])]
    exact (switching ω).refl s
  | none =>
    rw [endInError_open _ e s hterm]
    exact (switching_emit p _ _ _ _ _).after (switching_same rfl rfl)

theorem switching_covers (p : Parties ω) : Covers (switching ω) p where
  permits d _ := switching_permits p d
  counts _ := switching_same rfl rfl
  reading d _ := switching_permits p d
  streams _ := follows_bind (follows_modify fun _ => switching_same rfl rfl) fun _ =>
    switching_emit p _ _ _ _
  endsWell _ _ := switching_emit p _ _ _ _
  updates _ _ _ := switching_same rfl rfl
  schema d _ := switching_permits p d
  endsInError e := switching_endInError p e
  restarts _ := switching_same rfl rfl

theorem switching_announce (p : Parties ω) (phase : Milestone) (requestId : Option String) :
    Follows (switching ω) (announce p.logged phase requestId) :=
  follows_announce fun _ => switching_permits p _

end Task

def Course.sameActive (ω : Type) : Course (Log × ω) :=
  .ofGrowth (fun s s' => s'.active = s.active) (fun _ => rfl) fun h h' => h'.trans h

theorem Course.sameActive_permits (p : Parties ω) (d : Duty) : (sameActive ω).Permits p d :=
  permits_of fun ht => allows_of_panics ht.active ht.active

theorem Query.sameActive_restore (p : Parties ω) :
    Follows (sameActive ω) (Link.restore p.logged) := by
  have hcovers : Link.Covers (sameActive ω) p Attempt.isAutomatic :=
    ⟨fun d _ => sameActive_permits p d, fun _ => rfl⟩
  exact Link.follows_restore hcovers rfl

namespace Query

/-- Reading rows from here, the kill switch is looked at in that state. -/
inductive RowLook (p : Parties ω) (q : Query) (columns : List Column) :
    Nat → Reading → Session ω → Session ω → Prop where
  | now {patience : Nat} {r : Reading} {s : Session ω} : RowLook p q columns (patience + 1) r s s
  | later {patience : Nat} {r r' : Reading} {row : Row} {s s₁ s₂ c : Session ω}
      (hoff : s.killed = false) (hfetch : party p p.backend.fetchRow s = (.ok (some row), s₁))
      (haccept : acceptRow p q columns r row s₁ = (.ok r', s₂))
      (h : RowLook p q columns patience r' s₂ c) : RowLook p q columns (patience + 1) r s c

/-- Reading result sets from here, the kill switch is looked at before a row in that state. -/
inductive SetLook (p : Parties ω) (q : Query) (sql : String) (last : Bool) (started : Nat) :
    Nat → Session ω → Session ω → Prop where
  | here {patience : Nat} {columns : List Column} {s s₁ c : Session ω}
      (hcolumns : valueOr [] (party p p.backend.columns) s = (.ok columns, s₁))
      (h : RowLook p q columns p.patience {} s₁ c) : SetLook p q sql last started (patience + 1) s c
  | later {patience : Nat} {s s₁ c : Session ω}
      (hset : readSet p q sql last started s = (.ok true, s₁))
      (h : SetLook p q sql last started patience s₁ c) :
      SetLook p q sql last started (patience + 1) s c

/-- Trying a statement from here, the kill switch is looked at before a row in that state. -/
inductive TryLook (p : Parties ω) (q : Query) (sql : String) (last : Bool) :
    Nat → Session ω → Session ω → Prop where
  | here {retries : Nat} {s s₁ c : Session ω}
      (hexecute : party p (p.backend.execute sql q.params) s = (.ok (), s₁))
      (h : SetLook p q sql last (p.clock s.outside) p.patience s₁ c) :
      TryLook p q sql last retries s c
  | later {retries : Nat} {e : Error} {s s₁ s₂ c : Session ω}
      (hfailed : attemptStatement p q sql last s = (.error (.error e), s₁))
      (hoff : s₁.killed = false) (hlost : e.losesConnection = true)
      (hnone : s₁.active.streamed = false) (hback : Link.restore p s₁ = (.ok true, s₂))
      (h : TryLook p q sql last retries s₂ c) : TryLook p q sql last (retries + 1) s c

/-- Running statements from here, the kill switch is looked at before a row of one of them in that
state. -/
inductive Look (p : Parties ω) (q : Query) (sql : String) :
    List String → Session ω → Session ω → Prop where
  | here {rest : List String} {s c : Session ω}
      (h : TryLook p q sql rest.isEmpty s.settings.statementRetries (restarted s) c) :
      Look p q sql (sql :: rest) s c
  | later {sql' : String} {rest : List String} {s s₁ c : Session ω}
      (hrun : runWithRetries p q sql' rest.isEmpty s.settings.statementRetries (restarted s) =
        (.ok (), s₁))
      (h : Look p q sql rest s₁ c) : Look p q sql (sql' :: rest) s c

section Raises

variable {p : Parties ω} {q : Query} {sql : String} {s c : Session ω}

theorem RowLook.raises {columns : List Column} {patience : Nat} {r : Reading}
    (h : RowLook p q columns patience r s c) (hon : c.killed = true) :
    readRows p q sql columns patience r s = (.error (.error (.killed (some sql))), c) := by
  induction h with
  | now =>
    rw [readRows, get_bind_apply, if_pos hon]
    rfl
  | later hoff hfetch haccept _ ih =>
    rw [readRows, get_bind_apply, if_neg (by simp [hoff])]
    change (party p p.backend.fetchRow >>= _) _ = _
    rw [bind_of_ok hfetch]
    change (acceptRow p q columns _ _ >>= _) _ = _
    rw [bind_of_ok haccept]
    exact ih hon

theorem SetLook.raises {last : Bool} {started patience : Nat}
    (h : SetLook p q sql last started patience s c) (hon : c.killed = true) :
    readSets p q sql last started patience s = (.error (.error (.killed (some sql))), c) := by
  induction h with
  | here hcolumns h =>
    rw [readSets, readSet, takeSet, bind_assoc, bind_assoc, bind_of_ok hcolumns, bind_assoc,
      bind_apply, h.raises hon]
  | later hset _ ih =>
    rw [readSets, bind_of_ok hset]
    exact ih hon

theorem TryLook.raises {last : Bool} {retries : Nat} (h : TryLook p q sql last retries s c)
    (hon : c.killed = true) :
    runWithRetries p q sql last retries s = (.error (.error (.killed (some sql))), c) := by
  induction h with
  | @here retries s s₁ c hexecute h =>
    have hattempt : attemptStatement p q sql last s =
        (.error (.error (.killed (some sql))), c) := by
      rw [attemptStatement, now_bind_apply, bind_of_ok hexecute]
      exact h.raises hon
    rw [runWithRetries_apply, hattempt]
    -- what says that the query was killed is neither replaced nor retried
    dsimp only
    unfold afterFailure
    rw [get_bind_apply]
    cases retries <;> simp [retry, Error.killed, Error.isKilled, Error.losesConnection]
  | later hfailed hoff hlost hnone hback _ ih =>
    rw [runWithRetries_apply, hfailed]
    dsimp only
    rw [afterFailure_apply p sql _ _ hoff]
    simp only [retry, hlost, hnone]
    change (Link.restore p >>= _) _ = _
    rw [bind_of_ok hback]
    exact ih hon

/-- A query that finds itself killed goes no further. -/
theorem Look.raises {statements : List String} (h : Look p q sql statements s c)
    (hon : c.killed = true) :
    runStatements p q statements s = (.error (.error (.killed (some sql))), c) := by
  induction h with
  | here h => rw [runStatements_apply, bind_apply, h.raises hon]
  | later hrun _ ih =>
    rw [runStatements_apply, bind_of_ok hrun]
    exact ih hon

end Raises

section Leads

variable {p : Parties ω} {q : Query} {sql : String} {s c : Session (Log × ω)}

theorem switching_readRows (p : Parties ω) (q : Query) (sql : String) (columns : List Column)
    (patience : Nat) (r : Reading) :
    Follows (switching ω) (readRows p.logged q sql columns patience r) :=
  follows_readRows (Task.switching_covers p).toFetching
    (fun s => switching_sticks ((switching ω).refl s)) q sql columns patience r

theorem switching_readSets (p : Parties ω) (q : Query) (sql : String) (last : Bool)
    (started patience : Nat) :
    Follows (switching ω) (readSets p.logged q sql last started patience) :=
  follows_readSets (Task.switching_covers p).toReading
    (fun s => switching_sticks ((switching ω).refl s)) q sql last started patience

theorem switching_readSet (p : Parties ω) (q : Query) (sql : String) (last : Bool)
    (started : Nat) : Follows (switching ω) (readSet p.logged q sql last started) := by
  have hc := (Task.switching_covers p).toReading
  exact follows_readSet_of hc.toFetching (fun s => switching_sticks ((switching ω).refl s))
    (fun columns r stats elapsed _ =>
      follows_closeSet hc.streams (fun _ => hc.endsWell) q columns r stats elapsed)
    sql last started

theorem RowLook.goes {columns : List Column} {patience : Nat} {r : Reading}
    (h : RowLook p.logged q columns patience r s c) : (switching ω).Goes s c := by
  have hc := (Task.switching_covers p).toReading
  induction h with
  | now => exact (switching ω).refl _
  | later _ hfetch haccept _ ih =>
    have hrow := (hc.reading .fetchRow rfl p.backend.fetchRow).goes hfetch (by simp)
    have hkept := (follows_acceptRow hc.streams q columns _ _).goes haccept (by simp)
    exact (switching ω).trans ((switching ω).trans hrow hkept) ih

theorem SetLook.goes {last : Bool} {started patience : Nat}
    (h : SetLook p.logged q sql last started patience s c) : (switching ω).Goes s c := by
  induction h with
  | here hcolumns h =>
    have hask : Follows (switching ω) (valueOr [] (party p.logged p.logged.backend.columns)) :=
      follows_valueOr _ (switching_permits p .columns _)
    exact (switching ω).trans (hask.goes hcolumns (by simp)) h.goes
  | later hset _ ih =>
    exact (switching ω).trans ((switching_readSet p q sql last started).goes hset (by simp)) ih

theorem TryLook.goes {last : Bool} {retries : Nat} (h : TryLook p.logged q sql last retries s c) :
    (switching ω).Goes s c := by
  have hc := Task.switching_covers p
  induction h with
  | here hexecute h =>
    have hask := (switching_permits p (.execute sql q.params)
      (p.backend.execute sql q.params)).goes hexecute (by simp)
    exact (switching ω).trans hask h.goes
  | later hfailed _ _ _ hback _ ih =>
    have hattempt := (follows_attemptStatement hc.toFetching q sql last
      (fun started => switching_readSets p q sql last started _)).goes hfailed (by simp)
    have hrestore := (Link.follows_restore hc.toConnecting rfl).goes hback (by simp)
    exact (switching ω).trans ((switching ω).trans hattempt hrestore) ih

theorem Look.goes {statements : List String} (h : Look p.logged q sql statements s c) :
    (switching ω).Goes s c := by
  have hc := Task.switching_covers p
  induction h with
  | here h => exact (switching ω).trans (hc.restarts _) h.goes
  | @later sql' rest s s₁ c hrun _ ih =>
    have hstatement := (follows_runWithRetries hc q sql' rest.isEmpty
      (fun started => switching_readSets p q sql' _ started _) _).goes hrun (by simp)
    exact (switching ω).trans ((switching ω).trans (hc.restarts s) hstatement) ih

end Leads

section Open

variable {p : Parties ω} {q : Query} {s s' : Session (Log × ω)}

/-- If the move fails, or if it is not for a query's last statement, it leaves its task open. -/
def KeepsOpen (last : Bool) (m : Run (Log × ω) Unit) : Prop :=
  ∀ ⦃s x s'⦄, m s = (x, s') → LeavesOpen last x →
    s'.active.courier.terminal = s.active.courier.terminal

theorem keepsOpen_attemptStatement (sql : String) (last : Bool) :
    KeepsOpen last (attemptStatement p.logged q sql last) := by
  intro s x s' hrun hx
  obtain ⟨new, es, hattempt⟩ := attemptStatement_attempted p q sql last s
  rw [hrun] at hattempt
  exact (hattempt.leavesOpen hx).terminal

theorem keepsOpen_afterFailure {sql : String} {e : Error} {last : Bool}
    {again : Option (Run (Log × ω) Unit)} (hagain : ∀ m ∈ again, KeepsOpen last m) :
    KeepsOpen last (afterFailure p.logged sql e again) := by
  intro s x s' hrun hx
  cases afterFailure_cases hrun with
  | replaced | passed => rfl
  | abandoned _ hback => rw [(sameActive_restore p).grown id hback]
  | retried hm _ hback hrun =>
    rw [hagain _ hm hrun hx, (sameActive_restore p).grown id hback]

theorem keepsOpen_of_retry {sql : String} {last : Bool} {retries : Nat}
    (hagain : ∀ m ∈ retry p.logged q sql last retries, KeepsOpen last m) :
    KeepsOpen last (runWithRetries p.logged q sql last retries) := by
  intro s x s' hrun hx
  rw [runWithRetries_apply] at hrun
  rcases hfirst : attemptStatement p.logged q sql last s with ⟨(e | c | _) | _, s₁⟩ <;>
    rw [hfirst] at hrun
  · rw [← keepsOpen_attemptStatement sql last hfirst trivial]
    exact keepsOpen_afterFailure hagain hrun hx
  all_goals
    cases hrun
    exact keepsOpen_attemptStatement sql last hfirst hx

theorem keepsOpen_runWithRetries (sql : String) (last : Bool) (retries : Nat) :
    KeepsOpen last (runWithRetries p.logged q sql last retries) := by
  induction retries with
  | zero => exact keepsOpen_of_retry fun m hm => by cases hm
  | succ retries ih =>
    refine keepsOpen_of_retry fun m hm => ?_
    cases hm
    exact ih

theorem runStatements_open {statements : List String} {e : Error}
    (hrun : runStatements p.logged q statements s = (.error (.error e), s')) :
    s'.active.courier.terminal = s.active.courier.terminal := by
  induction statements generalizing s with
  | nil => cases hrun
  | cons sql rest ih =>
    rw [runStatements_apply, bind_apply] at hrun
    rcases hfirst : runWithRetries p.logged q sql rest.isEmpty s.settings.statementRetries
      (restarted s) with ⟨stop | _, s₁⟩ <;> rw [hfirst] at hrun
    · cases hrun
      exact keepsOpen_runWithRetries (s := restarted s) sql rest.isEmpty _ hfirst trivial
    · cases rest with
      | nil => cases hrun
      | cons sql' rest =>
        rw [ih hrun]
        exact keepsOpen_runWithRetries (s := restarted s) sql _ _ hfirst rfl

end Open

end Query

namespace Task

/-- Running the task from here, the kill switch is looked at before a row of a statement in that
state. -/
inductive Looks (p : Parties ω) (t : Task) (sql : String) (s c : Session ω) : Prop where
  | intro {q : Query} {s₁ s₂ : Session ω} (hwork : t.work = .query q) (hruns : marked t s = false)
      (hannounced : announce p .started t.requestId (takeUp t s) = (.ok (), s₁))
      (hbegun : emit p .pending (some startedMessage) none none (holdStats s₁) = (.ok (), s₂))
      (hlook : Query.Look p q sql q.statements s₂ c)

variable {p : Parties ω} {t : Task} {sql : String} {s c s' : Session (Log × ω)}

theorem Looks.goes (h : Looks p.logged t sql s c) : (switching ω).Goes (takeUp t s) c := by
  obtain @⟨q, s₁, s₂, -, -, hannounced, hbegun, hlook⟩ := h
  have hfirst := (switching_announce p .started t.requestId).goes hannounced (by simp)
  have hhold : (switching ω).Goes s₁ (holdStats s₁) := switching_same rfl rfl
  have hsecond := (switching_emit p _ _ _ _).goes hbegun (by simp)
  exact (switching ω).trans ((switching ω).trans ((switching ω).trans hfirst hhold) hsecond)
    hlook.goes

theorem sameActive_announce (p : Parties ω) (phase : Milestone) (requestId : Option String) :
    Follows (sameActive ω) (announce p.logged phase requestId) :=
  follows_announce fun _ => sameActive_permits p _

theorem finishes {s s' : Session (Log × ω)} {x : Except Stop Unit} {requestId : Option String}
    (hwork : s.active.work.isBuiltIn = true)
    (hrun : (do account p.logged; announce p.logged .finished requestId) s = (x, s')) :
    (switching ω).Allows x s s' ∧ s'.active = s.active ∧ (x = .ok () ∨ x = .error .hang) := by
  have hstops : Stops (· = .hang) (announce p.logged .finished requestId) :=
    stops_forM _ fun _ => stops_shielded _
  rw [bind_apply, account_builtIn p.logged s hwork] at hrun
  dsimp only at hrun
  have hswitch := switching_announce p .finished requestId
    { s with stats := LastRunStats.ofRun s.active.stats, statsHeld := false }
  have hactive := sameActive_announce p .finished requestId
    { s with stats := LastRunStats.ofRun s.active.stats, statsHeld := false }
  have hstop := hstops { s with stats := LastRunStats.ofRun s.active.stats, statsHeld := false }
  rw [hrun] at hswitch hactive hstop
  refine ⟨hswitch.after (switching_same rfl rfl), ?_, ?_⟩
  · rcases x with (_ | _ | _) | _ <;> exact hactive
  · rcases x with stop | _
    · exact .inr (congrArg _ (hstop stop rfl))
    · exact .inl rfl

/-- A query that sees the kill switch on sends the error that tells so. -/
theorem execute_killed {q : Query} {s₂ : Session (Log × ω)} (hwork : s.active.work = .query q)
    (hopen : s.active.courier.terminal = none)
    (hbegun : emit p.logged .pending (some startedMessage) none none s = (.ok (), s₂))
    (hlook : Query.Look p.logged q sql q.statements s₂ c) (hon : c.killed = true) :
    ∃ y s', execute p.logged s = (y, s') ∧ (switching ω).Allows y c s' ∧
      (∀ e, y ≠ .error (.error e)) ∧ s'.active.work.isBuiltIn = true ∧
      s'.active.courier.terminal = some .error ∧
      s'.active.stats.lastError = some (.ofError (.killed (some sql))) := by
  have hfailed := hlook.raises hon
  have hquery : q.run p.logged s₂ = (.error (.error (.killed (some sql))), c) := by
    unfold Query.run
    rw [if_neg, hfailed]
    intro hempty
    rw [List.isEmpty_iff.mp hempty] at hlook
    cases hlook
  -- the task is still open when it looks at the switch
  obtain ⟨_, _, s₂', hemit, hstart, hopen₂, -, -⟩ :=
    emit_sends p .pending (some startedMessage) none none s hopen
  obtain rfl : s₂' = s₂ := congrArg Prod.snd (hemit.symm.trans hbegun)
  obtain ⟨_, _, hsent, -, -⟩ :=
    (Query.sending_runStatements p q q.statements).goes hfailed (by simp)
  have hopen₃ : c.active.courier.terminal = none := (Query.runStatements_open hfailed).trans hopen₂
  obtain ⟨s₃, hclock, hsilent, hcourier⟩ := Query.clockOff_sends p (p.logged.clock s.outside) c
  obtain ⟨_, y, s₄, hend, hsends, hreports, hterm, hy⟩ :=
    endInError_sends p (.killed (some sql)) s₃ (by rw [hcourier]; exact hopen₃)
  have hclocked := (follows_clockOff (switching_covers p).toReading _).goes hclock (by simp)
  have hswitch := switching_endInError p (.killed (some sql)) s₃
  rw [hend] at hswitch
  refine ⟨y, s₄, ?_, hswitch.after hclocked, hy, ?_, hterm, ?_⟩
  · rw [Query.execute_query p.logged hwork, bind_of_ok hbegun, conclude, bind_apply, attempt,
      hquery]
    exact (bind_of_ok hclock _).trans hend
  · rw [hsends.work, hsilent.work, hsent.work, hstart.work, hwork]
    rfl
  · rw [hreports.lastError]
    rfl

/-- The query ends in that error, even if its sink panics at it. -/
theorem Looks.concludes (h : Looks p.logged t sql s c) (hon : c.killed = true)
    (hopen : t.courier.terminal = none) {x : Except Stop Unit}
    (hrun : perform p.logged t s = (x, s')) :
    (switching ω).Allows x c s' ∧ s'.active.courier.terminal = some .error ∧
      s'.active.stats.lastError = some (.ofError (.killed (some sql))) ∧
      (x = .ok () ∨ x = .error .hang) := by
  obtain @⟨q, s₁, s₂, hwork, hruns, hannounced, hbegun, hlook⟩ := h
  have hactive : s₁.active = t := (sameActive_announce p _ _).goes hannounced (by simp)
  have hwork₁ : (holdStats s₁).active.work = .query q := by
    rw [← hwork, ← hactive]
    rfl
  have hopen₁ : (holdStats s₁).active.courier.terminal = none := by
    rw [← hopen, ← hactive]
    rfl
  obtain ⟨y, s₂, hexecute, hswitch, hy, hbuiltIn, hterm, herror⟩ :=
    execute_killed hwork₁ hopen₁ hbegun hlook hon
  rw [perform_eq, hruns, bind_of_ok hannounced, bind_apply, modify_apply] at hrun
  dsimp only at hrun
  rw [bind_apply, undertake_apply, if_neg (by simp), hexecute] at hrun
  rcases y with (e | panic | _) | _
  · exact absurd rfl (hy e)
  · dsimp only at hrun
    rw [shielded_apply, fail_builtIn _ _ s₂ hbuiltIn, endInError_closed _ _ s₂ (by simp [hterm])]
      at hrun
    obtain ⟨hafter, hsame, hx⟩ := finishes hbuiltIn hrun
    rw [hsame]
    exact ⟨hafter.after hswitch, hterm, herror, hx⟩
  · cases hrun
    exact ⟨hswitch, hterm, herror, .inr rfl⟩
  · obtain ⟨hafter, hsame, hx⟩ := finishes hbuiltIn hrun
    rw [hsame]
    exact ⟨hafter.after hswitch, hterm, herror, hx⟩

/-- A query that is killed in time, and that no new query comes after, ends in the error that tells
so, and until then whoever asks is told that it was killed. -/
theorem perform_killed (p : Parties ω) (t : Task) {sql : String} {s c s' : Session (Log × ω)}
    {x : Except Stop Unit} {before after : Log} {thread : Thread} {a : Answer}
    (hopen : t.courier.terminal = none) (hrun : perform p.logged t s = (x, s'))
    (hlooks : Looks p.logged t sql s c)
    (hkill : c.log = s.log ++ (before ++ .asked thread .kill a :: after))
    (hexecute : ∀ thread t a, .asked thread (.execute t) a ∉ after) :
    (∀ thread a, .asked thread .isKilled a ∈ after → a = .flag true) ∧
      s'.active.courier.terminal = some .error ∧
      s'.active.stats.lastError = some (.ofError (.killed (some sql))) ∧
      (x = .ok () ∨ x = .error .hang) ∧
      ∃ rest, s'.log = c.log ++ rest ∧
        ((∀ thread t a, .asked thread (.execute t) a ∉ rest) →
          (∀ thread a, .asked thread .isKilled a ∈ rest → a = .flag true) ∧
            (x = .ok () → s'.killed = true)) := by
  obtain ⟨new, hlog, hswitch⟩ := hlooks.goes
  obtain rfl : new = before ++ .asked thread .kill a :: after :=
    List.append_cancel_left (hlog.symm.trans hkill)
  obtain ⟨hon, htold⟩ := hswitch.on_after_kill hexecute
  obtain ⟨hallows, hterm, herror, hx⟩ := hlooks.concludes hon hopen hrun
  refine ⟨htold, hterm, herror, hx, ?_⟩
  rcases hx with rfl | rfl
  · obtain ⟨rest, hrest, hlater⟩ := hallows
    rw [hon] at hlater
    refine ⟨rest, hrest, fun hnone => ?_⟩
    obtain ⟨hstill, htold'⟩ := hlater.stays_on hnone
    exact ⟨htold', fun _ => hstill⟩
  · obtain ⟨rest, b, hrest, hlater⟩ := hallows
    rw [hon] at hlater
    refine ⟨rest, hrest, fun hnone => ?_⟩
    obtain ⟨-, htold'⟩ := hlater.stays_on hnone
    exact ⟨htold', fun h => by cases h⟩

namespace Slow

open Rehearsal

/-- A backend with a statement that waits and then has two rows. -/
def cast : Cast where
  backend := {
    interruptible := false
    statements := [{ sql := "SLOW", gated := true, sets := [{ rows := [[.int 1], [.int 2]] }] }] }

def query : Task := { work := .query (.ofText "SLOW"), courier := { sink := .channel 1 } }

def opened (script : List Cue) : Session (Log × Scene) :=
  (Session.start cast.parties.logged
    (.create "s1" "Mock" {} {} ([], cast.scene {} script))).2

def begun (script : List Cue) : Session (Log × Scene) :=
  (emit cast.parties.logged .pending (some startedMessage) none none
    (holdStats (takeUp query (opened script)))).2

def executed (script : List Cue) : Session (Log × Scene) :=
  (party cast.parties.logged (cast.parties.logged.backend.execute "SLOW" [])
    (Query.restarted (begun script))).2

def looking (script : List Cue) : Session (Log × Scene) :=
  (valueOr [] (party cast.parties.logged cast.parties.logged.backend.columns) (executed script)).2

def ended (script : List Cue) : Session (Log × Scene) :=
  (perform cast.parties.logged query (opened script)).2

theorem exists_of_isOk {α : Type} {m : Run (Log × Scene) α} {s : Session (Log × Scene)}
    (h : (m s).1.isOk = true) : ∃ a, m s = (.ok a, (m s).2) := by
  rcases hms : m s with ⟨_ | a, s'⟩ <;> rw [hms] at h
  · cases h
  · exact ⟨a, rfl⟩

theorem looks_looking {script : List Cue} (hmarked : marked query (opened script) = false)
    (hexecuted : (party cast.parties.logged (cast.parties.logged.backend.execute "SLOW" [])
      (Query.restarted (begun script))).1.isOk = true)
    (hcolumns : (valueOr [] (party cast.parties.logged cast.parties.logged.backend.columns)
      (executed script)).1.isOk = true) :
    Looks cast.parties.logged query "SLOW" (opened script) (looking script) := by
  obtain ⟨⟨⟩, hexecute⟩ := exists_of_isOk hexecuted
  obtain ⟨columns, hask⟩ := exists_of_isOk hcolumns
  rw [← executed] at hexecute
  rw [← looking] at hask
  have hbegun : emit cast.parties.logged .pending (some startedMessage) none none
      (holdStats (takeUp query (opened script))) = (.ok (), begun script) := rfl
  have hpatience : cast.parties.logged.patience = 999999999 + 1 := rfl
  have hrow : Query.RowLook cast.parties.logged (.ofText "SLOW") columns
      cast.parties.logged.patience {} (looking script) (looking script) := by
    rw [hpatience]
    exact .now
  have hset : Query.SetLook cast.parties.logged (.ofText "SLOW") "SLOW" true 0
      (999999999 + 1) (executed script) (looking script) := .here hask hrow
  rw [← hpatience] at hset
  exact .intro rfl hmarked rfl hbegun (.here (.here hexecute hset))

/-- What was written while the query ran up to that point, seen from one of its entries. -/
theorem exists_log_looking {script : List Cue} {e : Entry} {n : Nat}
    (hlooks : Looks cast.parties.logged query "SLOW" (opened script) (looking script))
    (he : (looking script).log[(opened script).log.length + n]? = some e) :
    ∃ before, (looking script).log = (opened script).log ++
      (before ++ e :: (looking script).log.drop ((opened script).log.length + n + 1)) := by
  obtain ⟨new, hlog, -⟩ := hlooks.goes
  replace hlog : (looking script).log = (opened script).log ++ new := hlog
  rw [hlog, List.getElem?_append_right (by omega), Nat.add_sub_cancel_left] at he
  obtain ⟨hn, rfl⟩ := List.getElem?_eq_some_iff.mp he
  refine ⟨new.take n, ?_⟩
  rw [hlog, Nat.add_assoc, List.drop_length_add_append, List.getElem_cons_drop,
    List.take_append_drop]

theorem eq_kill_of_matches {x : Option Entry}
    (h : x matches some (.asked .caller .kill .unit)) :
    x = some (.asked .caller .kill .unit) := by
  split at h
  · rfl
  · cases h

theorem eq_isKilled_of_matches {x : Option Entry}
    (h : x matches some (.asked .caller .isKilled (.flag false))) :
    x = some (.asked .caller .isKilled (.flag false)) := by
  split at h
  · rfl
  · cases h

/-- What others submit meanwhile, queries apart, does not lift a kill. -/
def killing : List Cue :=
  [{ move := .call .kill }, { move := .call (.submit { work := .schema .current }) },
    { move := .call .isKilled }, { move := .permit }]

def asksQuery : Entry → Bool
  | .asked _ (.execute _) _ => true
  | _ => false

theorem perform_killed_slow :
    Looks cast.parties.logged query "SLOW" (opened killing) (looking killing) ∧
      (∃ before after, (looking killing).log =
        (opened killing).log ++ (before ++ .asked .caller .kill .unit :: after)) ∧
      (ended killing).active.courier.terminal = some .error ∧
      (ended killing).active.stats.lastError = some (.ofError (.killed (some "SLOW"))) := by
  have hlooks : Looks cast.parties.logged query "SLOW" (opened killing) (looking killing) :=
    looks_looking (by decide +kernel) (by decide +kernel) (by decide +kernel)
  have hkill := eq_kill_of_matches (x := (looking killing).log[(opened killing).log.length + 3]?)
    (by decide +kernel)
  obtain ⟨before, hlog⟩ := exists_log_looking hlooks hkill
  have hnone : ((looking killing).log.drop ((opened killing).log.length + 3 + 1)).all
      (fun e => !asksQuery e) = true := by decide +kernel
  have hrun : perform cast.parties.logged query (opened killing) =
      ((perform cast.parties.logged query (opened killing)).1, ended killing) := by
    rw [ended]
    exact (Prod.eta _).symm
  obtain ⟨-, hterm, herror, -⟩ := perform_killed cast.parties query (by decide +kernel) hrun hlooks
    hlog fun thread t a hmem => by simpa [asksQuery] using List.all_eq_true.mp hnone _ hmem
  exact ⟨hlooks, ⟨_, _, hlog⟩, hterm, herror⟩

/-- Another query is submitted after the kill. -/
def lifting : List Cue :=
  [{ move := .call .kill }, { move := .call .isKilled },
    { move := .call (.execute (.ofText "OTHER")) }, { move := .call .isKilled },
    { move := .permit }]

/-- A new query lifts the kill, although the old one has not seen it yet. -/
theorem kill_lifted_by_execute :
    Looks cast.parties.logged query "SLOW" (opened lifting) (looking lifting) ∧
      (∃ before after, (looking lifting).log =
          (opened lifting).log ++ (before ++ .asked .caller .kill .unit :: after) ∧
        .asked .caller .isKilled (.flag false) ∈ after) ∧
      (ended lifting).killed = false ∧ (ended lifting).active.courier.terminal = some .ok := by
  have hlooks : Looks cast.parties.logged query "SLOW" (opened lifting) (looking lifting) :=
    looks_looking (by decide +kernel) (by decide +kernel) (by decide +kernel)
  have hkill := eq_kill_of_matches (x := (looking lifting).log[(opened lifting).log.length + 3]?)
    (by decide +kernel)
  obtain ⟨before, hlog⟩ := exists_log_looking hlooks hkill
  have htold := eq_isKilled_of_matches
    (x := ((looking lifting).log.drop ((opened lifting).log.length + 3 + 1))[2]?)
    (by decide +kernel)
  exact ⟨hlooks, ⟨before, _, hlog, List.mem_of_getElem? htold⟩, by decide +kernel,
    by decide +kernel⟩

end Slow

end Task
end DatabaseSession
