import DatabaseSession.Proofs.Supply

namespace DatabaseSession.Query

open Run

variable {ω : Type} {p : Parties ω} {params : List Value} {supply : Supply p params}
variable {plan : List (String × Results)} {sets : List RowSet} {s : Session (Log × ω)}

/-- Only the last set can be final. -/
def flagged (final : Bool) : List RowSet → List (RowSet × Bool)
  | [] => []
  | set :: sets => (set, final && sets.isEmpty) :: flagged final sets

theorem flagged_append (a : List RowSet) {b : List RowSet} (hb : b ≠ []) :
    flagged true (a ++ b) = flagged false a ++ flagged true b := by
  induction a with
  | nil => rfl
  | cons set a ih =>
    have hne : (a ++ b).isEmpty = false := by simp [hb]
    rw [List.cons_append, flagged, flagged, ih, hne]
    rfl

/-- The results of a plan come to an end before so many rows and sets. -/
def Within (patience : Nat) (plan : List (String × Results)) : Prop :=
  ∀ step ∈ plan, step.2.more.length < patience ∧
    ∀ set ∈ step.2.sets, set.rows.length < patience

theorem fetchRow_leads {set : RowSet} (hs : supply.Ready plan (set :: sets) s) :
    ∃ s', party p.logged p.logged.backend.fetchRow s = (.ok set.rows.head?, s') ∧
      supply.Leads plan (set.tail :: sets) [] s s' := by
  obtain ⟨row, s', hfetch, rfl, hlead⟩ :=
    Supply.party_leads (d := .fetchRow) rfl hs (supply.fetchRow hs.holds)
  exact ⟨s', hfetch, hlead⟩

theorem readRows_drained {q : Query} {sql : String} {columns names : List Column}
    {stats : StatementStats} (patience : Nat) (r : Reading)
    (hs : supply.Ready plan (⟨names, [], stats⟩ :: sets) s) :
    ∃ s', readRows p.logged q sql columns (patience + 1) r s = (.ok r, s') ∧
      supply.Leads plan (⟨names, [], stats⟩ :: sets) [] s s' := by
  obtain ⟨s', hfetch, hlead⟩ := fetchRow_leads hs
  refine ⟨s', ?_, hlead⟩
  rw [readRows, get_bind_apply, hs.killed]
  exact bind_of_ok hfetch _

theorem readRows_goes_on {q : Query} {sql : String} {columns names : List Column} {row : Row}
    {rows : List Row} {stats : StatementStats} (patience : Nat) (r : Reading)
    (hs : supply.Ready plan (⟨names, row :: rows, stats⟩ :: sets) s) :
    ∃ s', supply.Leads plan (⟨names, rows, stats⟩ :: sets) [] s s' ∧
      readRows p.logged q sql columns (patience + 1) r s = (do
        let r' ← acceptRow p.logged q columns r row
        readRows p.logged q sql columns patience r') s' := by
  obtain ⟨s', hfetch, hlead⟩ := fetchRow_leads hs
  refine ⟨s', hlead, ?_⟩
  rw [readRows, get_bind_apply, hs.killed]
  exact bind_of_ok hfetch _

theorem readSets_until_close (q : Query) (sql : String) (last : Bool) (started : Nat) {set : RowSet}
    {more : List RowSet} (patience : Nat) {r : Reading} (es : Option String → List Event)
    (hread : ∀ {s}, supply.Ready plan (set :: more) s →
      ∃ s', readRows p.logged q sql set.columns p.patience {} s = (.ok r, s') ∧
        supply.Leads plan ({ set with rows := [] } :: more) (es s.active.courier.requestId) s s')
    (hs : supply.Ready plan (set :: more) s) :
    ∃ s' elapsed, supply.Leads plan more (es s.active.courier.requestId) s s' ∧
      readSets p.logged q sql last started (patience + 1) s = (do
        closeSet p.logged q set.columns r set.stats elapsed (last && more.isEmpty)
        if !more.isEmpty then readSets p.logged q sql last started patience) s' := by
  obtain ⟨columns, s₁, hcolumns, rfl, hlead₁⟩ :=
    Supply.party_leads (d := .columns) rfl hs (supply.columns hs.holds)
  obtain ⟨s₂, hrows, hlead₂⟩ := hread hlead₁.ready
  obtain ⟨stats, s₃, hstats, rfl, hlead₃⟩ :=
    Supply.party_leads (d := .stats) rfl hlead₂.ready (supply.stats hlead₂.ready.holds)
  obtain ⟨hupdate, hlead₄⟩ := Supply.update_leads (f := Task.count set.stats) rfl rfl hlead₃.ready
  obtain ⟨b, s₅, hnext, rfl, hlead₅⟩ :=
    Supply.party_leads (d := .nextResult) rfl hlead₄.ready (supply.nextResult hlead₄.ready.holds)
  have hlead := (((hlead₁.trans hlead₂).trans hlead₃).trans hlead₄).trans hlead₅
  rw [hlead₁.requestId] at hlead
  refine ⟨s₅, Duration.ofNanos (p.logged.clock s₅.outside - started), by simpa using hlead, ?_⟩
  simp only [readSets_succ, takeSet, endSet, bind_assoc, pure_bind]
  refine (bind_of_ok (valueOr_of_ok hcolumns []) _).trans ((bind_of_ok hrows _).trans
    ((bind_of_ok (valueOr_of_ok hstats {}) _).trans ((bind_of_ok hupdate _).trans
    ((bind_of_ok hnext _).trans ?_))))
  rw [now_bind_apply, Bool.not_not]

/-- What a query tells of a result set, which may be the final one, wherever a supply has it at
hand. -/
def Tells (q : Query) (supply : Supply p params)
    (Told : Option String → RowSet → Bool → List Event → Prop) : Prop :=
  ∀ (sql : String) (last : Bool) (started patience : Nat) {plan : List (String × Results)}
    {set : RowSet} {more : List RowSet} {s : Session (Log × ω)},
    set.rows.length < p.patience → supply.Ready plan (set :: more) s →
      ∃ s' new es, readSets p.logged q sql last started (patience + 1) s =
          (if !more.isEmpty then readSets p.logged q sql last started patience else pure ()) s' ∧
        Told s.active.courier.requestId set (last && more.isEmpty) es ∧ Task.Sends new es s s' ∧
        ((last && more.isEmpty) = false → supply.Ready plan more s')

variable {Told : Option String → RowSet → Bool → List Event → Prop} {id : Option String}

/-- What is told of result sets, one after the other. -/
inductive Tale (Told : Option String → RowSet → Bool → List Event → Prop) (id : Option String) :
    List (RowSet × Bool) → List Event → Prop where
  | nil : Tale Told id [] []
  | cons {set : RowSet} {final : Bool} {sets : List (RowSet × Bool)} {es es' : List Event} :
    Told id set final es → Tale Told id sets es' → Tale Told id ((set, final) :: sets) (es ++ es')

theorem Tale.append {a b : List (RowSet × Bool)} {es es' : List Event} (h : Tale Told id a es)
    (h' : Tale Told id b es') : Tale Told id (a ++ b) (es ++ es') := by
  induction h with
  | nil => exact h'
  | cons hset _ ih =>
    rw [List.append_assoc]
    exact .cons hset ih

theorem Tells.readSets {q : Query} (h : Tells q supply Told) (sql : String) (last : Bool)
    (started : Nat) (set : RowSet) (more : List RowSet) {patience : Nat}
    (hsets : more.length < patience) (hrows : ∀ x ∈ set :: more, x.rows.length < p.patience)
    (hs : supply.Ready plan (set :: more) s) :
    ∃ s' new es, readSets p.logged q sql last started patience s = (.ok (), s') ∧
      Tale Told s.active.courier.requestId (flagged last (set :: more)) es ∧
      Task.Sends new es s s' ∧ (last = false → supply.Ready plan [] s') := by
  induction more generalizing set patience s with
  | nil =>
    obtain ⟨n, rfl⟩ : ∃ n, patience = n + 1 := ⟨patience - 1, by simp at hsets; omega⟩
    obtain ⟨s', new, es, hrun, htold, hsends, hready⟩ :=
      h sql last started n (hrows set (by simp)) hs
    refine ⟨s', new, es, hrun, ?_, hsends, fun hlast => hready (by simp [hlast])⟩
    simpa [flagged] using Tale.cons htold .nil
  | cons set' more ih =>
    obtain ⟨n, rfl⟩ : ∃ n, patience = n + 1 := ⟨patience - 1, by simp at hsets; omega⟩
    obtain ⟨s₁, new₁, es₁, hrun, htold, hsends, hready⟩ :=
      h sql last started n (hrows set (by simp)) hs
    obtain ⟨s', new, es, hrest, htale, hsends', hlast⟩ := ih set'
      (by simpa using hsets) (fun x hx => hrows x (List.mem_cons_of_mem _ hx)) (hready (by simp))
    rw [hsends.requestId] at htale
    exact ⟨s', _, _, hrun.trans hrest, .cons htold htale, hsends.append hsends', hlast⟩

theorem Tells.attemptStatement {q : Query} {supply : Supply p q.params} (h : Tells q supply Told)
    (sql : String) (results : Results) (last : Bool) (hwithin : Within p.patience [(sql, results)])
    (hs : supply.Ready ((sql, results) :: plan) sets s) :
    ∃ s' new es, attemptStatement p.logged q sql last s = (.ok (), s') ∧
      Tale Told s.active.courier.requestId (flagged last results.sets) es ∧
      Task.Sends new es s s' ∧ (last = false → supply.Ready plan [] s') := by
  obtain ⟨hmore, hrows⟩ := hwithin (sql, results) (by simp)
  obtain ⟨_, s₁, hexecute, -, hlead⟩ := Supply.party_leads (d := .execute sql q.params) rfl hs
    ((supply.execute hs.holds).mono fun _ _ h => (⟨trivial, h⟩ : True ∧ _))
  obtain ⟨s', new, es, hread, htale, hsends, hready⟩ := h.readSets sql last
    (p.logged.clock s.outside) results.first results.more hmore hrows hlead.ready
  obtain ⟨new₁, hsends₁⟩ := hlead.sends
  rw [hlead.requestId] at htale
  refine ⟨s', _, es, ?_, htale, hsends₁.append hsends, hready⟩
  rw [Query.attemptStatement, now_bind_apply]
  exact (bind_of_ok hexecute _).trans hread

theorem runWithRetries_of_ok {q : Query} {sql : String} {last : Bool}
    {s' : Session (Log × ω)} (h : attemptStatement p.logged q sql last s = (.ok (), s'))
    (retries : Nat) : runWithRetries p.logged q sql last retries s = (.ok (), s') := by
  cases retries <;> exact bind_of_ok (attempt_of_ok h) _

theorem Tells.runStatements_cons {q : Query} {supply : Supply p q.params} (h : Tells q supply Told)
    (sql : String) (results : Results) (rest : List String)
    (hwithin : Within p.patience [(sql, results)])
    (hs : supply.Ready ((sql, results) :: plan) sets s) :
    ∃ s' new es, runStatements p.logged q (sql :: rest) s = runStatements p.logged q rest s' ∧
      Tale Told s.active.courier.requestId (flagged rest.isEmpty results.sets) es ∧
      Task.Sends new es s s' ∧ (rest.isEmpty = false → supply.Ready plan [] s') := by
  obtain ⟨hupdate, hlead⟩ := Supply.update_leads (f := fun t => { t with streamed := false })
    rfl rfl hs
  obtain ⟨s', new, es, hrun, htale, hsends, hready⟩ :=
    h.attemptStatement sql results rest.isEmpty hwithin hlead.ready
  obtain ⟨new₁, hsends₁⟩ := hlead.sends
  refine ⟨s', _, es, ?_, htale, hsends₁.append hsends, hready⟩
  rw [runStatements, bind_of_ok hupdate, get_bind_apply]
  exact bind_of_ok (runWithRetries_of_ok hrun _) _

/-- Under a supply a batch tells of the result sets of all its statements. -/
theorem Tells.runStatements {q : Query} {supply : Supply p q.params} (h : Tells q supply Told)
    (step : String × Results) (rest : List (String × Results))
    (hwithin : Within p.patience (step :: rest)) (hs : supply.Ready (step :: rest) sets s) :
    ∃ s' new es, runStatements p.logged q ((step :: rest).map Prod.fst) s = (.ok (), s') ∧
      Tale Told s.active.courier.requestId
        (flagged true ((step :: rest).flatMap fun x => x.2.sets)) es ∧ Task.Sends new es s s' := by
  induction rest generalizing step sets s with
  | nil =>
    obtain ⟨s', new, es, hrun, htale, hsends, -⟩ := h.runStatements_cons step.1 step.2 [] hwithin hs
    exact ⟨s', new, es, hrun, by simpa using htale, hsends⟩
  | cons step' rest ih =>
    obtain ⟨s₁, new₁, es₁, hrun, htale₁, hsends, hready⟩ := h.runStatements_cons step.1 step.2
      ((step' :: rest).map Prod.fst) (fun x hx => hwithin x (by simp_all)) hs
    obtain ⟨s', new, es, hrest, htale, hsends'⟩ := ih step'
      (fun x hx => hwithin x (List.mem_cons_of_mem _ hx)) (hready rfl)
    rw [hsends.requestId] at htale
    refine ⟨s', _, _, hrun.trans hrest, ?_, hsends.append hsends'⟩
    rw [List.flatMap_cons, flagged_append _ (by simp [Results.sets])]
    exact htale₁.append htale

/-- A query whose statements succeed announces its start and then tells of every result set of
every statement. -/
theorem Tells.execute {q : Query} {supply : Supply p q.params} (h : Tells q supply Told)
    (hwork : s.active.work = .query q) (hstatements : q.statements = plan.map Prod.fst)
    (hplan : plan ≠ []) (hwithin : Within p.patience plan) (hs : supply.Ready plan sets s) :
    ∃ s' new es, Task.execute p.logged s = (.ok (), s') ∧
      Tale Told s.active.courier.requestId
        (flagged true (plan.flatMap fun step => step.2.sets)) es ∧
      Task.Sends new (Task.startEvent s.active.courier.requestId :: es) s s' := by
  obtain ⟨step, rest, rfl⟩ := List.exists_cons_of_ne_nil hplan
  obtain ⟨s₁, new₁, hemit, hstart, hholds, hkill, hterm⟩ :=
    Supply.emit_holds .pending (some Task.startedMessage) none hs
  obtain ⟨s₂, new₂, es, hrun, htale, hsends⟩ :=
    h.runStatements step rest hwithin (⟨hholds, hkill, hterm⟩ : supply.Ready _ sets s₁)
  rw [hstart.requestId] at htale
  have hquery : q.run p.logged s₁ = (.ok (), s₂) := by
    rw [run, hstatements]
    exact hrun
  -- the clock stops without a further event
  obtain ⟨s₃, hclock, hsilent⟩ : ∃ s₃, Task.clockOff p.logged (p.logged.clock s.outside) s₂ =
      (.ok (), s₃) ∧ Task.Sends [] [] s₂ s₃ :=
    ⟨_, rfl, .silent (by simp [Session.log]) rfl rfl rfl (by simp [Log.taken])⟩
  have hall := (hstart.append hsends).append hsilent
  rw [List.append_nil, List.append_nil] at hall
  refine ⟨s₃, _, es, ?_, htale, hall⟩
  rw [Task.execute_builtIn p.logged s (by rw [hwork]; rfl), now_bind_apply, hwork]
  refine (bind_of_ok hemit _).trans ?_
  rw [Task.pursue, Task.conclude]
  exact (bind_of_ok (attempt_of_ok hquery) _).trans (bind_of_ok hclock _)

end DatabaseSession.Query
