import DatabaseSession.Proofs.Growth
import DatabaseSession.Proofs.Shapes

namespace DatabaseSession

open Run

variable {ω : Type}

/-- The data has the form that the shape asks for: rows that are the last ones, or one value. -/
def EventData.Fits (shape : Shape) : EventData → Prop
  | .rows chunk => shape = .rows ∧ chunk.done = true
  | .result _ => shape ≠ .rows

namespace Query

/-- What a query without statements ends with. -/
def nothing : Chunk := { executionTime := some (Binary64.ofInt 0), done := true }

/-- What a query may end well with. One without statements does not look at its shape. -/
def Answers (q : Query) (data : EventData) : Prop :=
  if q.statements = [] then data = .rows nothing else data.Fits q.shape

theorem Answers.fits_iff {q : Query} {data : EventData} (h : q.Answers data) :
    data.Fits q.shape ↔ q.statements ≠ [] ∨ q.shape = .rows := by
  unfold Answers at h
  split at h
  · next hnone =>
    subst h
    exact ⟨fun hfits => .inr hfits.1, fun h => ⟨h.resolve_left (not_not.mpr hnone), rfl⟩⟩
  · next hsome => exact ⟨fun _ => .inl hsome, fun _ => h⟩

end Query

/-- Events are sent, and those that end the task well carry such data. -/
def Course.paying (ω : Type) (P : EventData → Prop) : Course (Log × ω) :=
  .ofGrowth
    (fun s s' => ∃ new es, Task.Sends new es s s' ∧
      ∀ e ∈ es, e.state = .ok → ∃ data, e.data = some data ∧ P data)
    (fun s => ⟨[], [], .refl s, by simp⟩)
    (by
      rintro a b c ⟨new, es, hsends, hes⟩ ⟨new', es', hsends', hes'⟩
      refine ⟨_, _, hsends.append hsends', fun e he => ?_⟩
      exact (List.mem_append.mp he).elim (hes e) (hes' e))

namespace Course

variable {P : EventData → Prop} {p : Parties ω} {s s' : Session (Log × ω)}

theorem paying_of_hushed (h : (Query.hushed ω).Goes s s') : (paying ω P).Goes s s' := by
  obtain ⟨new, hsends⟩ := h
  exact ⟨new, [], hsends, by simp⟩

theorem paying_permits (p : Parties ω) {d : Duty} (hd : Log.deliveries [.called d] = []) :
    (paying ω P).Permits p d := by
  intro α m s
  have hgoes : (paying ω P).Goes s (party p.logged (m.logged d) s).2 :=
    paying_of_hushed ((Query.hushed_permits p hd m).grown id rfl)
  exact allows_of_panics hgoes hgoes

theorem paying_restore (p : Parties ω) : Follows (paying ω P) (Link.restore p.logged) := by
  intro s
  have hgoes : (paying ω P).Goes s (Link.restore p.logged s).2 :=
    paying_of_hushed ((Query.hushed_restore p).grown id rfl)
  exact allows_of_panics hgoes hgoes

theorem paying_same (hout : s'.outside = s.outside)
    (hwork : s'.active.work = s.active.work) (hcourier : s'.active.courier = s.active.courier)
    (htrackers : s'.trackers = s.trackers) : (paying ω P).Goes s s' :=
  paying_of_hushed (Query.hushed_same hout hwork hcourier htrackers)

theorem paying_emit (p : Parties ω) {state : Progress} (message : Option String)
    {data : Option EventData} (error : Option ErrorReport)
    (h : state = .ok → ∃ d, data = some d ∧ P d) :
    Follows (paying ω P) (Task.emit p.logged state message data error) := by
  intro s
  have hgoes : (paying ω P).Goes s (Task.emit p.logged state message data error s).2 := by
    cases hterm : s.active.courier.terminal with
    | some st =>
      rw [Task.emit_closed _ _ _ _ _ s (by simp [hterm])]
      exact (paying ω P).refl s
    | none =>
      obtain ⟨new, x, s', hr, hsends, -⟩ := Task.emit_sends p state message data error s hterm
      rw [hr]
      exact ⟨new, _, hsends, by simpa using h⟩
  exact allows_of_panics hgoes hgoes

theorem paying_endInError (p : Parties ω) (e : Error) :
    Follows (paying ω P) (Task.endInError p.logged e) := by
  refine follows_bind follows_get fun s => ?_
  split
  · exact follows_pure ()
  · exact follows_bind (follows_modify fun _ => paying_same rfl rfl rfl rfl) fun _ =>
      paying_emit p _ _ (by simp)

theorem paying_resumes (p : Parties ω) : Query.Resumes (paying ω P) p where
  reading d hd := paying_permits p (by cases d <;> simp_all [Duty.isReading, Log.deliveries])
  streams _ := follows_bind (follows_modify fun _ => paying_same rfl rfl rfl rfl) fun _ =>
    paying_emit p _ _ (by simp)
  updates _ _ h := paying_same rfl h.work h.courier rfl
  restores _ hgoes := (paying_restore p _).after hgoes
  restarts _ := paying_same rfl rfl rfl rfl

end Course

open Course

namespace Query

variable {p : Parties ω} {q : Query}

theorem paying_closeSet (p : Parties ω) (hq : q.statements ≠ []) (columns : List Column)
    (r : Reading) (stats : StatementStats) (elapsed : Duration) (final : Bool) :
    Follows (paying ω q.Answers) (closeSet p.logged q columns r stats elapsed final) := by
  unfold closeSet
  dsimp only
  split
  · next hfinal =>
    refine paying_emit p _ _ fun _ => ⟨_, rfl, ?_⟩
    rw [Answers, if_neg hq]
    cases hshape : q.shape with
    | rows => exact ⟨rfl, hfinal⟩
    | oneField | oneFieldList => simp [shaped, EventData.Fits]
  · split
    · exact (paying_resumes p).streams _
    · exact follows_pure ()

theorem paying_readSets (p : Parties ω) (hq : q.statements ≠ []) (sql : String) (last : Bool)
    (started patience : Nat) :
    Follows (paying ω q.Answers) (readSets p.logged q sql last started patience) :=
  follows_readSets_of (paying_resumes p).toFetching (paying ω q.Answers).refl
    (paying_closeSet p hq) sql last started patience

theorem paying_run (p : Parties ω) (q : Query) : Follows (paying ω q.Answers) (q.run p.logged) := by
  unfold run
  split
  · next hnone =>
    refine paying_emit p _ _ fun _ => ⟨_, rfl, ?_⟩
    rw [Answers, if_pos (List.isEmpty_iff.mp hnone)]
    rfl
  · next hsome =>
    have hq : q.statements ≠ [] := by simpa using hsome
    exact (paying_resumes p).follows_runStatements q
      (fun sql last started => paying_readSets p hq sql last started _) _

end Query

namespace Task

variable {P : EventData → Prop} {p : Parties ω} {q : Query}

theorem paying_conclude (p : Parties ω) (started : Nat) (q : Query) :
    Follows (paying ω q.Answers)
      (conclude p.logged started (q.run p.logged) fun _ => pure ()) := by
  refine follows_bind (follows_attempt (Query.paying_run p q)) fun r =>
    follows_bind (follows_bind (follows_now _) fun _ =>
      follows_modify fun _ => paying_same rfl rfl rfl rfl) fun _ => ?_
  cases r with
  | ok _ => exact follows_pure ()
  | error e => exact paying_endInError p e

theorem paying_execute (p : Parties ω) {s : Session (Log × ω)} (hwork : s.active.work = .query q) :
    (paying ω q.Answers).Allows (execute p.logged s).1 s (execute p.logged s).2 := by
  rw [Query.execute_query p.logged hwork]
  exact follows_bind (paying_emit p _ _ (by simp)) (fun _ => paying_conclude p _ q) s

theorem paying_cancel (p : Parties ω) : Follows (paying ω P) (cancel p.logged) := by
  refine follows_bind follows_get fun s => ?_
  cases s.active.work with
  | query _ | schema _ =>
    exact follows_bind (follows_modify fun _ => paying_same rfl rfl rfl rfl) fun _ =>
      paying_emit p _ _ (by simp)
  | custom key => exact follows_always (paying_permits p (d := .cancelErrand key) rfl _)

theorem paying_fail (p : Parties ω) (e : Error) : Follows (paying ω P) (fail p.logged e) := by
  refine follows_bind follows_get fun s => ?_
  cases s.active.work with
  | query _ | schema _ => exact paying_endInError p e
  | custom key => exact follows_always (paying_permits p (d := .failErrand key e) rfl _)

theorem paying_undertake (p : Parties ω) (cancelled : Bool) {s : Session (Log × ω)}
    (hwork : s.active.work = .query q) :
    (paying ω q.Answers).Allows (undertake p.logged cancelled s).1 s
      (undertake p.logged cancelled s).2 := by
  have hrun : (paying ω q.Answers).Allows
      ((if cancelled then cancel p.logged else execute p.logged) s).1 s
      ((if cancelled then cancel p.logged else execute p.logged) s).2 := by
    cases cancelled with
    | false => exact paying_execute p hwork
    | true => exact paying_cancel p s
  refine allows_bind (allows_guarded hrun) fun r => ?_
  cases r with
  | ok _ => exact follows_pure ()
  | error panic => exact follows_shielded (paying_fail p _)

theorem paying_account (p : Parties ω) : Follows (paying ω P) (account p.logged) :=
  Performs.follows_account (fun _ => paying_permits p rfl)
    (fun _ _ _ => paying_same rfl rfl rfl rfl) id

/-- Whatever the parties do: the data that a query ends well with have the form of its shape exactly
if it has statements, or if the shape is that of rows. Without statements it ends with no rows, also
where one value was asked for. -/
theorem perform_pays (p : Parties ω) (t : Task) (s : Session (Log × ω))
    (hwork : t.work = .query q) :
    ∃ new es, Sends new es (takeUp t s) (perform p.logged t s).2 ∧
      ∀ e ∈ es, e.state = .ok → ∃ data, e.data = some data ∧
        (data.Fits q.shape ↔ q.statements ≠ [] ∨ q.shape = .rows) ∧
        (q.statements = [] → data = .rows Query.nothing) := by
  have hannounce : ∀ phase, Follows (paying ω q.Answers)
      (announce p.logged phase t.requestId) := fun phase =>
    follows_announce fun i => paying_permits p rfl
  have hhold : Follows (paying ω q.Answers) (modify holdStats : Run (Log × ω) Unit) :=
    follows_modify fun _ => paying_same rfl rfl rfl rfl
  have hallows : (paying ω q.Answers).Allows (perform p.logged t s).1 (takeUp t s)
      (perform p.logged t s).2 := by
    rw [perform_eq]
    refine allows_bind_of_ok (hannounce _ _) fun _ s₁ hrun => ?_
    -- the observers have left the task as it was taken up
    obtain ⟨_, _, hsends, -⟩ := (hannounce _).grown id hrun
    refine allows_bind_of_ok (hhold s₁) fun _ s₂ hheld => ?_
    cases hheld
    exact allows_bind (paying_undertake p _ (hsends.work.trans hwork)) fun _ =>
      follows_bind (paying_account p) fun _ => hannounce _
  obtain ⟨new, es, hsends, hpaid⟩ := hallows.goes_of_sticks id
  refine ⟨new, es, hsends, fun e he hok => ?_⟩
  obtain ⟨data, hdata, hanswers⟩ := hpaid e he hok
  refine ⟨data, hdata, hanswers.fits_iff, fun hnone => ?_⟩
  rwa [Query.Answers, if_pos hnone] at hanswers

/-- A query for a list, but without statements. -/
def idle : Task :=
  { work := .query { shape := .oneFieldList }, courier := { requestId := some "q1" } }

def alone : Session (Log × Rehearsal.Scene) :=
  .create "s1" "Mock" {} {} ([], Rehearsal.Cast.scene {} {} [])

theorem perform_pays_idle :
    ∃ new init closing, Sends new (init ++ [closing]) (takeUp idle alone)
        (perform (Rehearsal.Cast.parties {}).logged idle alone).2 ∧
      closing.state = .ok ∧ closing.data = some (.rows Query.nothing) ∧
      ¬(EventData.rows Query.nothing).Fits .oneFieldList := by
  obtain ⟨new, es, hsends, hpaid⟩ := perform_pays (Rehearsal.Cast.parties {}) idle alone rfl
  have hterm : (perform (Rehearsal.Cast.parties {}).logged idle alone).2.active.courier.terminal =
      some .ok := by decide +kernel
  obtain ⟨init, closing, rfl, -, hstate, -⟩ :=
    hsends.states.exists_closing rfl (by rw [hterm]; rfl)
  have hok : closing.state = .ok := Option.some.inj (hstate.symm.trans hterm)
  obtain ⟨data, hdata, hfits, hnothing⟩ := hpaid closing (by simp) hok
  obtain rfl := hnothing rfl
  exact ⟨new, init, closing, hsends, hok, hdata, fun h => by simpa using hfits.mp h⟩

end Task
end DatabaseSession
