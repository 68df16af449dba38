import DatabaseSession.Proofs.Streaming
import DatabaseSession.Proofs.Retries

namespace DatabaseSession

/-- The last of the result sets of a statement. -/
def Results.final (r : Results) : RowSet := r.sets.getLast (by simp [Results.sets])

namespace Query

open Run

variable {ω : Type} {p : Parties ω} {params : List Value}

/-- What rows come to in the shapes that show one value. -/
def shown : Shape → List Row → Json
  | .oneFieldList, rows => .array (rows.map leadCell)
  | _, rows => (rows.head?.map leadCell).getD .null

def shownEvent (shape : Shape) (requestId : Option String) (rows : List Row) : Event :=
  ⟨requestId, .ok, some (Task.rowsTransferred rows.length), none, some (.result (shown shape rows))⟩

/-- Takes in a row of which only the first cell may be kept. -/
def Reading.gather (shape : Shape) (r : Reading) (row : Row) : Reading :=
  { r with
    fields :=
      if shape = .oneField ∧ r.fields.isEmpty = false then r.fields
      else r.fields.push (leadCell row)
    total := r.total + 1 }

theorem acceptRow_gather {q : Query} (hshape : q.shape ≠ .rows) (columns : List Column)
    (r : Reading) (row : Row) :
    acceptRow p q columns r row = pure (r.gather q.shape row) := by
  unfold acceptRow Reading.gather
  cases hq : q.shape with
  | rows => exact absurd hq hshape
  | oneField =>
    by_cases hr : r.fields.isEmpty = true
    · have hempty : r.fields = #[] := Array.isEmpty_iff.mp hr
      simp [hempty]
    · simp [hr]
  | oneFieldList => simp

def gathered (shape : Shape) (rows : List Row) : Reading := rows.foldl (Reading.gather shape) {}

theorem foldl_gather_total (shape : Shape) (rows : List Row) (r : Reading) :
    (rows.foldl (Reading.gather shape) r).total = r.total + rows.length := by
  induction rows generalizing r with
  | nil => rfl
  | cons row rows ih =>
    have hone : (r.gather shape row).total = r.total + 1 := rfl
    rw [List.foldl_cons, ih, hone, List.length_cons]
    omega

theorem foldl_gather_list (rows : List Row) (r : Reading) :
    (rows.foldl (Reading.gather .oneFieldList) r).fields.toList =
      r.fields.toList ++ rows.map leadCell := by
  induction rows generalizing r with
  | nil => simp
  | cons row rows ih => simp [ih, Reading.gather]

theorem foldl_gather_field (rows : List Row) {r : Reading} (hr : r.fields.isEmpty = false) :
    (rows.foldl (Reading.gather .oneField) r).fields = r.fields := by
  induction rows generalizing r with
  | nil => rfl
  | cons row rows ih =>
    have hsame : (r.gather .oneField row).fields = r.fields := if_pos ⟨rfl, hr⟩
    rw [List.foldl_cons, ih (by rw [hsame, hr]), hsame]

theorem shaped_gathered {shape : Shape} (hshape : shape ≠ .rows) (rows : List Row) :
    shaped shape (gathered shape rows) = some (shown shape rows) := by
  cases shape with
  | rows => exact absurd rfl hshape
  | oneField =>
    cases rows with
    | nil => rfl
    | cons row rows =>
      have hfirst : (gathered .oneField (row :: rows)).fields = #[leadCell row] :=
        foldl_gather_field rows rfl
      simp [shaped, shown, hfirst]
  | oneFieldList => simp [shaped, shown, gathered, foldl_gather_list]

theorem closeSet_gathered {q : Query} (hshape : q.shape ≠ .rows) (columns : List Column)
    (rows : List Row) (stats : StatementStats) (elapsed : Duration) (final : Bool) :
    closeSet p q columns (gathered q.shape rows) stats elapsed final =
      if final then
        Task.emit p .ok (some (Task.rowsTransferred rows.length))
          (some (.result (shown q.shape rows))) none
      else pure () := by
  have htotal : (gathered q.shape rows).total = rows.length := by
    simp [gathered, foldl_gather_total]
  unfold closeSet endWell
  rw [shaped_gathered hshape, htotal]
  dsimp only
  rw [if_neg hshape]

section Supplied

variable {supply : Supply p params} {plan : List (String × Results)} {sets : List RowSet}
  {s : Session (Log × ω)}

theorem readRows_gathers {q : Query} (hshape : q.shape ≠ .rows) (sql : String)
    (columns : List Column) (set : RowSet) {patience : Nat} (hlength : set.rows.length < patience)
    (r : Reading) (hs : supply.Ready plan (set :: sets) s) :
    ∃ s', readRows p.logged q sql columns patience r s =
        (.ok (set.rows.foldl (Reading.gather q.shape) r), s') ∧
      supply.Leads plan ({ set with rows := [] } :: sets) [] s s' := by
  obtain ⟨names, rows, stats⟩ := set
  induction rows generalizing patience r s with
  | nil =>
    obtain ⟨patience, rfl⟩ : ∃ n, patience = n + 1 := ⟨patience - 1, by simp at hlength; omega⟩
    exact readRows_drained patience r hs
  | cons row rows ih =>
    obtain ⟨patience, rfl⟩ : ∃ n, patience = n + 1 := ⟨patience - 1, by simp at hlength; omega⟩
    obtain ⟨s₁, hlead, hfetched⟩ := readRows_goes_on patience r hs
    obtain ⟨s', hrest, hlead'⟩ := ih (r.gather q.shape row) (by simpa using hlength) hlead.ready
    refine ⟨s', ?_, hlead.trans hlead'⟩
    rw [hfetched, acceptRow_gather hshape]
    exact hrest

/-- The events of a result set in a shape that shows one value: of all but the final one, none. -/
def Shown (shape : Shape) (requestId : Option String) (set : RowSet) (final : Bool)
    (es : List Event) : Prop :=
  es = if final then [shownEvent shape requestId set.rows] else []

theorem tells_shown {q : Query} (supply : Supply p params) (hshape : q.shape ≠ .rows) :
    Tells q supply (Shown q.shape) := by
  intro sql last started patience plan set more s hrows hs
  obtain ⟨s₁, elapsed, hlead, hrun⟩ := readSets_until_close q sql last started patience
    (fun _ => []) (readRows_gathers hshape sql set.columns set hrows {}) hs
  rw [← gathered, closeSet_gathered hshape] at hrun
  obtain ⟨new, hsends⟩ := hlead.sends
  cases hfinal : last && more.isEmpty with
  | false =>
    rw [hfinal] at hrun
    exact ⟨s₁, new, [], hrun, rfl, hsends, fun _ => hlead.ready⟩
  | true =>
    rw [hfinal] at hrun
    obtain ⟨s', new', hemit, hsent, -, -, -⟩ := Supply.emit_holds .ok
      (some (Task.rowsTransferred set.rows.length)) (some (.result (shown q.shape set.rows)))
      hlead.ready
    rw [hlead.requestId] at hsent
    exact ⟨s', _, _, hrun.trans (bind_of_ok hemit _), rfl, hsends.append hsent, by simp⟩

theorem Tale.shown {shape : Shape} {id : Option String} {sets : List RowSet} {es : List Event}
    (h : Tale (Shown shape) id (flagged true sets) es) (hsets : sets ≠ []) :
    es = [shownEvent shape id (sets.getLast hsets).rows] := by
  induction sets generalizing es with
  | nil => exact absurd rfl hsets
  | cons set sets ih =>
    rw [flagged] at h
    obtain ⟨⟩ | ⟨hset, hrest⟩ := h
    cases sets with
    | nil =>
      obtain ⟨⟩ := hrest
      exact hset ▸ by simp
    | cons set' sets =>
      rw [ih hrest (by simp)]
      exact hset ▸ by simp

theorem getLast_flatMap_sets (hplan : plan ≠ []) (hsets : (plan.flatMap fun x => x.2.sets) ≠ []) :
    (plan.flatMap fun x => x.2.sets).getLast hsets = (plan.getLast hplan).2.final := by
  obtain ⟨earlier, step, rfl⟩ := (List.eq_nil_or_concat plan).resolve_left hplan
  have hlast : ((earlier ++ [step]).flatMap fun x => x.2.sets) =
      (earlier.flatMap fun x => x.2.sets) ++ step.2.sets := by simp
  simp only [hlast, List.concat_eq_append, List.getLast_append_singleton]
  exact List.getLast_append_right _

/-- Under a supply a query for one value sends its start and the value of the last result set. -/
theorem execute_shows_supplied {q : Query} (supply : Supply p q.params) (hshape : q.shape ≠ .rows)
    (hwork : s.active.work = .query q) (hstatements : q.statements = plan.map Prod.fst)
    (hplan : plan ≠ []) (hwithin : Within p.patience plan) (hs : supply.Ready plan sets s) :
    ∃ s' new, Task.execute p.logged s = (.ok (), s') ∧
      Task.Sends new [Task.startEvent s.active.courier.requestId,
        shownEvent q.shape s.active.courier.requestId (plan.getLast hplan).2.final.rows] s s' := by
  obtain ⟨s', new, es, hrun, htale, hsends⟩ :=
    (tells_shown supply hshape).execute hwork hstatements hplan hwithin hs
  have hsets : (plan.flatMap fun x => x.2.sets) ≠ [] := by
    obtain ⟨step, rest, rfl⟩ := List.exists_cons_of_ne_nil hplan
    simp [Results.sets]
  obtain rfl := htale.shown hsets
  rw [getLast_flatMap_sets hplan] at hsends
  exact ⟨s', new, hrun, hsends⟩

end Supplied

section Unsupplied

variable {q : Query} {sql : String} {last : Bool}

inductive Fetched (p : Parties ω) : List Row → Session ω → Session ω → Prop where
  | done {s s' : Session ω} (h : party p p.backend.fetchRow s = (.ok none, s')) : Fetched p [] s s'
  | row {row : Row} {rows : List Row} {s s₁ s' : Session ω}
      (h : party p p.backend.fetchRow s = (.ok (some row), s₁)) (hrest : Fetched p rows s₁ s') :
      Fetched p (row :: rows) s s'

/-- A result set was read, and then it was asked whether there are more. -/
def SetRead (p : Parties ω) (rows : List Row) (more : Bool) (s s' : Session ω) : Prop :=
  ∃ columns s₁ s₂ stats s₃, valueOr [] (party p p.backend.columns) s = (.ok columns, s₁) ∧
    Fetched p rows s₁ s₂ ∧ valueOr {} (party p p.backend.stats) s₂ = (.ok stats, s₃) ∧
    party p p.backend.nextResult { s₃ with active := s₃.active.count stats } = (.ok more, s')

/-- All result sets of a statement were read, the last of them with these rows. -/
inductive SetsRead (p : Parties ω) (rows : List Row) : Session ω → Session ω → Prop where
  | last {s s' : Session ω} (h : SetRead p rows false s s') : SetsRead p rows s s'
  | more {others : List Row} {s s₁ s' : Session ω} (h : SetRead p others true s s₁)
      (hrest : SetsRead p rows s₁ s') : SetsRead p rows s s'

/-- A statement was executed and all its result sets read, the last of them with these rows. -/
def Yields (p : Parties ω) (params : List Value) (sql : String) (rows : List Row)
    (s s' : Session ω) : Prop :=
  ∃ s₁, party p (p.backend.execute sql params) s = (.ok (), s₁) ∧ SetsRead p rows s₁ s'

theorem readRows_fetched (hshape : q.shape ≠ .rows) {columns : List Column} {patience : Nat}
    {r r' : Reading} {s s' : Session ω}
    (h : readRows p q sql columns patience r s = (.ok r', s')) :
    ∃ rows, Fetched p rows s s' ∧ r' = rows.foldl (Reading.gather q.shape) r := by
  induction patience generalizing r s with
  | zero => cases h
  | succ patience ih =>
    rw [readRows, get_bind_apply] at h
    cases hkilled : s.killed with
    | true =>
      rw [hkilled] at h
      cases h
    | false =>
      rw [hkilled] at h
      change (party p p.backend.fetchRow >>= _) s = _ at h
      rw [bind_apply] at h
      rcases hfetch : party p p.backend.fetchRow s with ⟨stop | _ | row, s₁⟩ <;> rw [hfetch] at h
      · cases h
      · cases h
        exact ⟨[], .done hfetch, rfl⟩
      · dsimp only at h
        rw [acceptRow_gather hshape] at h
        obtain ⟨rows, hrows, rfl⟩ := ih h
        exact ⟨row :: rows, .row hfetch hrows, rfl⟩

theorem takeSet_read (hshape : q.shape ≠ .rows) {columns : List Column} {r : Reading}
    {stats : StatementStats} {more : Bool} {s s' : Session ω}
    (h : takeSet p q sql s = (.ok (columns, r, stats, more), s')) :
    ∃ rows, r = gathered q.shape rows ∧ SetRead p rows more s s' := by
  obtain ⟨cs, s₁, hcolumns, h⟩ := exists_of_bind_ok h
  obtain ⟨r', s₂, hrows, h⟩ := exists_of_bind_ok h
  obtain ⟨⟨st, b⟩, s₅, hend, h⟩ := exists_of_bind_ok h
  cases h
  obtain ⟨st', s₃, hstats, hend⟩ := exists_of_bind_ok hend
  obtain ⟨_, s₄, hcount, hend⟩ := exists_of_bind_ok hend
  cases hcount
  obtain ⟨b', s₅, hnext, hend⟩ := exists_of_bind_ok hend
  cases hend
  obtain ⟨rows, hfetched, hgathered⟩ := readRows_fetched hshape hrows
  exact ⟨rows, hgathered, columns, s₁, s₂, stats, s₃, hcolumns, hfetched, hstats, hnext⟩

/-- The course of what sends nothing. -/
def hushed (ω : Type) : Course (Log × ω) :=
  .ofGrowth (fun s s' => ∃ new, Task.Sends new [] s s') (fun s => ⟨[], .refl s⟩)
    (by
      rintro a b c ⟨new, h⟩ ⟨new', h'⟩
      exact ⟨new ++ new', h.append h'⟩)

theorem hushed_permits (p : Parties ω) {d : Duty} (hd : Log.deliveries [.called d] = []) :
    (hushed ω).Permits p d := by
  refine Course.permits_of fun {x new s s'} ht => ?_
  have hsilent : (hushed ω).Goes s s' := ⟨new, .ofTurned ht hd⟩
  exact Course.allows_of_panics hsilent hsilent

theorem hushed_same {s s' : Session (Log × ω)} (hout : s'.outside = s.outside)
    (hwork : s'.active.work = s.active.work) (hcourier : s'.active.courier = s.active.courier)
    (htrackers : s'.trackers = s.trackers) : (hushed ω).Goes s s' :=
  ⟨[], .silent (by simp [Session.log, hout]) hwork hcourier rfl (by simp [Log.taken, htrackers])⟩

theorem hushed_restore (p : Parties ω) : Follows (hushed ω) (Link.restore p.logged) := by
  have hcovers : Link.Covers (hushed ω) p Attempt.isAutomatic :=
    ⟨fun d hd => hushed_permits p (by cases d <;> simp_all [Duty.isConnecting, Log.deliveries]),
      fun _ => hushed_same rfl rfl rfl rfl⟩
  exact Link.follows_restore hcovers rfl

theorem hushed_readRows (p : Parties ω) (hshape : q.shape ≠ .rows) (columns : List Column)
    (patience : Nat) (r : Reading) :
    Follows (hushed ω) (readRows p.logged q sql columns patience r) := by
  induction patience generalizing r with
  | zero => exact follows_hang fun s => ⟨[], .refl s⟩
  | succ patience ih =>
    refine follows_unlessKilled sql (follows_bind (hushed_permits p (d := .fetchRow) rfl _)
      fun row => ?_)
    cases row with
    | none => exact follows_pure r
    | some row =>
      dsimp only
      rw [acceptRow_gather hshape]
      exact ih _

theorem hushed_takeSet (p : Parties ω) (hshape : q.shape ≠ .rows) :
    Follows (hushed ω) (takeSet p.logged q sql) :=
  follows_bind (follows_valueOr _ (hushed_permits p (d := .columns) rfl _)) fun columns =>
    follows_bind (hushed_readRows p hshape columns _ _) fun _ =>
    follows_bind (follows_bind (follows_valueOr _ (hushed_permits p (d := .stats) rfl _)) fun _ =>
      follows_bind (follows_modify fun _ => hushed_same rfl rfl rfl rfl) fun _ =>
      follows_bind (hushed_permits p (d := .nextResult) rfl _) fun _ => follows_pure _)
      fun _ => follows_pure _

def showRows (p : Parties ω) (q : Query) (rows : List Row) : Run ω Unit :=
  Task.emit p .ok (some (Task.rowsTransferred rows.length)) (some (.result (shown q.shape rows)))
    none

/-- What becomes of statements: they stop without a word, or are read to the end and, if the last
statement is among them, the rows of its last set are shown. -/
inductive Peruses (p : Parties ω) (q : Query) (last : Bool)
    (Read : List Row → Session (Log × ω) → Session (Log × ω) → Prop) (s : Session (Log × ω)) :
    Except Stop Unit → Session (Log × ω) → Prop where
  | stopped {stop : Stop} {s' : Session (Log × ω)} (hsilent : (hushed ω).Goes s s') :
      Peruses p q last Read s (.error stop) s'
  | ended {rows : List Row} {x : Except Stop Unit} {s₁ s' : Session (Log × ω)}
      (hread : Read rows s s₁) (hsilent : (hushed ω).Goes s s₁)
      (hshow : (if last then showRows p.logged q rows else pure ()) s₁ = (x, s')) :
      Peruses p q last Read s x s'

variable {Read Read' : List Row → Session (Log × ω) → Session (Log × ω) → Prop}
  {s s₁ s' : Session (Log × ω)} {x : Except Stop Unit}

theorem Peruses.after (h : Peruses p q last Read s₁ x s') (hsilent : (hushed ω).Goes s s₁)
    (hread : ∀ {rows s'}, Read rows s₁ s' → (hushed ω).Goes s₁ s' → Read' rows s s') :
    Peruses p q last Read' s x s' := by
  cases h with
  | stopped hrest => exact .stopped ((hushed ω).trans hsilent hrest)
  | ended hrows hrest hshow =>
    exact .ended (hread hrows hrest) ((hushed ω).trans hsilent hrest) hshow

theorem readSets_peruses (hshape : q.shape ≠ .rows) (started patience : Nat)
    (h : readSets p.logged q sql last started patience s = (x, s')) :
    Peruses p q last (SetsRead p.logged) s x s' := by
  induction patience generalizing s with
  | zero =>
    cases h
    exact .stopped ((hushed ω).refl _)
  | succ patience ih =>
    rw [readSets_succ, bind_apply] at h
    rcases hset : takeSet p.logged q sql s with ⟨stop | ⟨columns, r, stats, more⟩, s₁⟩ <;>
      rw [hset] at h
    · cases h
      exact .stopped ((hushed_takeSet p hshape).grown id hset)
    · obtain ⟨rows, rfl, hread⟩ := takeSet_read hshape hset
      have hsilent := (hushed_takeSet p hshape).grown id hset
      dsimp only at h
      rw [now_bind_apply, closeSet_gathered hshape] at h
      cases more with
      | true =>
        -- a set that is not the last is not told of
        rw [Bool.not_true, Bool.and_false] at h
        exact (ih h).after hsilent fun hrest _ => .more hread hrest
      | false =>
        rw [Bool.not_false, Bool.and_true] at h
        exact .ended (.last hread) hsilent (by simpa [showRows] using h)

theorem attemptStatement_peruses (hshape : q.shape ≠ .rows)
    (h : attemptStatement p.logged q sql last s = (x, s')) :
    Peruses p q last (Yields p.logged q.params sql) s x s' := by
  have hduty := hushed_permits p (d := .execute sql q.params) rfl (p.backend.execute sql q.params)
  rw [attemptStatement, now_bind_apply, bind_apply] at h
  rcases hexecute : party p.logged (p.logged.backend.execute sql q.params) s with
    ⟨stop | _, s₁⟩ <;> rw [hexecute] at h
  · cases h
    exact .stopped (hduty.grown id hexecute)
  · exact (readSets_peruses hshape _ _ h).after (hduty.grown id hexecute) fun hread _ =>
      ⟨s₁, hexecute, hread⟩

/-- A statement was executed, maybe after others and after failed attempts, and read. -/
def YieldsLater (p : Parties ω) (params : List Value) (sql : String) (rows : List Row)
    (s s' : Session (Log × ω)) : Prop :=
  ∃ s₁, (hushed ω).Goes s s₁ ∧ Yields p.logged params sql rows s₁ s' ∧ (hushed ω).Goes s₁ s'

theorem YieldsLater.after {rows : List Row} (h : YieldsLater p params sql rows s₁ s')
    (hsilent : (hushed ω).Goes s s₁) : YieldsLater p params sql rows s s' := by
  obtain ⟨s₂, hsilent', hyields⟩ := h
  exact ⟨s₂, (hushed ω).trans hsilent hsilent', hyields⟩

/-- A failed attempt leaves nothing to the next one. -/
theorem afterFailure_peruses {e : Error} {again : Option (Run (Log × ω) Unit)}
    (hagain : ∀ retry ∈ again, ∀ {s x s'}, retry s = (x, s') →
      Peruses p q last (YieldsLater p q.params sql) s x s')
    (h : afterFailure p.logged sql e again s = (x, s')) :
    Peruses p q last (YieldsLater p q.params sql) s x s' := by
  cases afterFailure_cases h with
  | replaced => exact .stopped ((hushed ω).refl s)
  | passed => exact .stopped ((hushed ω).refl s)
  | abandoned _ hback => exact .stopped ((hushed_restore p).grown id hback)
  | retried hmem _ hback hrun =>
    have hsilent := (hushed_restore p).grown id hback
    exact (hagain _ hmem hrun).after hsilent fun hread _ => hread.after hsilent

theorem stops_showRows (p : Parties ω) (q : Query) (last : Bool) (rows : List Row) :
    Stops Unfailing (if last then showRows p q rows else pure ()) := by
  split
  · exact Task.stops_emit p _ _ _ _
  · exact stops_pure ()

theorem tryStatement_peruses (hshape : q.shape ≠ .rows) {retries : Nat}
    (hagain : ∀ again ∈ retry p.logged q sql last retries, ∀ {s x s'}, again s = (x, s') →
      Peruses p q last (YieldsLater p q.params sql) s x s')
    (h : runWithRetries p.logged q sql last retries s = (x, s')) :
    Peruses p q last (YieldsLater p q.params sql) s x s' := by
  have hnow : ∀ {x s'}, attemptStatement p.logged q sql last s = (x, s') →
      Peruses p q last (YieldsLater p q.params sql) s x s' := fun hfirst =>
    (attemptStatement_peruses hshape hfirst).after ((hushed ω).refl s) fun hread hsilent =>
      ⟨s, (hushed ω).refl s, hread, hsilent⟩
  rw [runWithRetries_apply] at h
  rcases hfirst : attemptStatement p.logged q sql last s with ⟨(e | c | _) | _, s₁⟩ <;>
    rw [hfirst] at h
  · cases hnow hfirst with
    | stopped hsilent =>
      exact (afterFailure_peruses hagain h).after hsilent fun hread _ => hread.after hsilent
    | ended _ _ hshow =>
      -- showing the rows does not fail
      exact absurd rfl (stops_showRows p.logged q last _ _ _ (by rw [hshow]) e)
  all_goals
    cases h
    exact hnow hfirst

theorem runWithRetries_peruses (hshape : q.shape ≠ .rows) (retries : Nat)
    (h : runWithRetries p.logged q sql last retries s = (x, s')) :
    Peruses p q last (YieldsLater p q.params sql) s x s' := by
  induction retries generalizing s x s' with
  | zero => exact tryStatement_peruses hshape (by simp [retry]) h
  | succ retries ih =>
    refine tryStatement_peruses hshape (fun again hmem => ?_) h
    obtain rfl : _ = again := Option.some.inj hmem
    exact ih

theorem Peruses.silent (h : Peruses p q false Read s x s') : (hushed ω).Goes s s' := by
  cases h with
  | stopped hsilent => exact hsilent
  | ended _ hsilent hshow =>
    cases hshow
    exact hsilent

/-- The statements of a query are gone through, and the last set of the last one is shown. -/
theorem runStatements_peruses (hshape : q.shape ≠ .rows) {statements : List String}
    (hstatements : statements ≠ [])
    (h : runStatements p.logged q statements s = (x, s')) :
    Peruses p q true (YieldsLater p q.params (statements.getLast hstatements)) s x s' := by
  induction statements generalizing s with
  | nil => exact absurd rfl hstatements
  | cons sql rest ih =>
    have hfresh : (hushed ω).Goes s { s with active := { s.active with streamed := false } } :=
      hushed_same rfl rfl rfl rfl
    have hupdate : Task.update (fun t => { t with streamed := false }) s =
        (.ok (), { s with active := { s.active with streamed := false } }) := rfl
    rw [runStatements, bind_of_ok hupdate, get_bind_apply, bind_apply] at h
    rcases hfirst : runWithRetries p.logged q sql rest.isEmpty s.settings.statementRetries
      { s with active := { s.active with streamed := false } } with ⟨stop | _, s₁⟩ <;>
      rw [hfirst] at h
    all_goals
      have hperuses := (runWithRetries_peruses hshape _ hfirst).after hfresh fun hread _ =>
        hread.after hfresh
    · cases h
      cases rest with
      | nil => exact hperuses
      | cons => exact .stopped hperuses.silent
    · cases rest with
      | nil =>
        cases h
        exact hperuses
      | cons next rest =>
        have hsilent := hperuses.silent
        rw [List.getLast_cons (by simp)]
        exact (ih (by simp) h).after hsilent fun hread _ => hread.after hsilent

theorem hushed_open (h : (hushed ω).Goes s s') (hopen : s.active.courier.terminal = none) :
    s'.active.courier.terminal = none := by
  obtain ⟨new, hsends⟩ := h
  have hstates := hsends.states
  rw [hopen] at hstates
  generalize s'.active.courier.terminal = t at hstates ⊢
  cases hstates
  rfl

/-- Whatever the backend does: unless the query ends in an error, it shows the rows last fetched for
its last statement. -/
theorem execute_shows_fetched (hshape : q.shape ≠ .rows) (hstatements : q.statements ≠ [])
    (hwork : s.active.work = .query q) (hopen : s.active.courier.terminal = none)
    (h : Task.execute p.logged s = (.ok (), s'))
    (hterm : s'.active.courier.terminal ≠ some .error) :
    ∃ rows s₁ s₂, (∃ new, Task.Sends new [Task.startEvent s.active.courier.requestId] s s₁) ∧
      Yields p.logged q.params (q.statements.getLast hstatements) rows s₁ s₂ ∧
      (∃ new, Task.Sends new [] s₁ s₂) ∧
      ∃ new, Task.Sends new [shownEvent q.shape s.active.courier.requestId rows] s₂ s' := by
  -- the start event, then the statements, then the clock
  rw [Task.execute_builtIn p.logged s (by rw [hwork]; rfl), now_bind_apply, hwork] at h
  obtain ⟨_, s₁, hemit, h⟩ := exists_of_bind_ok h
  obtain ⟨new₁, y, s₁', hemit', hstart, hstill, -⟩ := Task.emit_sends p .pending
    (some Task.startedMessage) none none s hopen
  rw [hemit] at hemit'
  obtain ⟨-, rfl⟩ := Prod.mk.inj hemit'
  obtain ⟨r, s₂, hattempt, h⟩ := exists_of_bind_ok h
  obtain ⟨_, s₃, hclock, h⟩ := exists_of_bind_ok h
  have hquiet : (hushed ω).Goes s₂ s₃ := by
    cases hclock
    exact hushed_same rfl rfl rfl rfl
  have hrun : q.run p.logged = runStatements p.logged q q.statements := by
    rw [run, if_neg (by simpa using hstatements)]
  rw [hrun] at hattempt
  rcases hstmts : runStatements p.logged q q.statements s₁ with ⟨(e | c | _) | _, s₄⟩ <;>
    rw [attempt, hstmts] at hattempt <;> cases hattempt
  · -- a failed query ends in an error
    have hopen₃ : s₃.active.courier.terminal = none := by
      cases runStatements_peruses hshape hstatements hstmts with
      | stopped hsilent => exact hushed_open ((hushed ω).trans hsilent hquiet) hstill
      | ended _ _ hshow =>
        exact absurd rfl (stops_showRows p.logged q true _ _ _ (by rw [hshow]) e)
    obtain ⟨new, x, s₅, hend, -, -, herror, -⟩ := Task.endInError_sends p e s₃ hopen₃
    have hsame : s₅ = s' := congrArg Prod.snd (hend.symm.trans h)
    exact absurd (hsame ▸ herror) hterm
  · cases h
    cases runStatements_peruses hshape hstatements hstmts with
    | @ended rows _ s₄ _ hread hsilent hshow =>
      obtain ⟨s₅, ⟨before, hbefore⟩, hyields, between, hbetween⟩ := hread
      obtain ⟨new, x, s₆, hshow', hshown, -⟩ := Task.emit_sends p .ok
        (some (Task.rowsTransferred rows.length)) (some (.result (shown q.shape rows))) none s₄
        (hushed_open hsilent hstill)
      have hsame : s₆ = s₂ := congrArg Prod.snd (hshow'.symm.trans hshow)
      subst hsame
      obtain ⟨after, hafter⟩ := hquiet
      have hfirst := hstart.append hbefore
      have hid : s₄.active.courier.requestId = s.active.courier.requestId :=
        hbetween.requestId.trans hfirst.requestId
      rw [hid] at hshown
      exact ⟨rows, s₅, s₄, ⟨_, hfirst⟩, hyields, ⟨between, hbetween⟩, _, hshown.append hafter⟩

end Unsupplied

/-- A query for one value sends two events if its statements succeed: its start, and the value of
the last result set of the last statement, which no other rows contribute to. So it is with every
supply of results. And whatever else a backend does, a query that does not end in an error shows the
rows that were fetched last, of the last set of its last statement. -/
theorem execute_shows (params : List Value) (k : Int) (shape : Shape) (hshape : shape ≠ .rows)
    {statements : List String} (hstatements : statements ≠ []) {s : Session (Log × ω)}
    (hwork : s.active.work = .query { statements, params, packetSize := packetOfInt k, shape })
    (hopen : s.active.courier.terminal = none) :
    (∀ (supply : Supply p params) {plan : List (String × Results)} {sets : List RowSet}
      (hplan : plan ≠ []), statements = plan.map Prod.fst → Within p.patience plan →
      supply.Ready plan sets s →
      ∃ s' new, Task.execute p.logged s = (.ok (), s') ∧
        Task.Sends new [Task.startEvent s.active.courier.requestId,
          shownEvent shape s.active.courier.requestId (plan.getLast hplan).2.final.rows] s s') ∧
    ∀ s', Task.execute p.logged s = (.ok (), s') → s'.active.courier.terminal ≠ some .error →
      ∃ rows s₁ s₂, (∃ new, Task.Sends new [Task.startEvent s.active.courier.requestId] s s₁) ∧
        Yields p.logged params (statements.getLast hstatements) rows s₁ s₂ ∧
        (∃ new, Task.Sends new [] s₁ s₂) ∧
        ∃ new, Task.Sends new [shownEvent shape s.active.courier.requestId rows] s₂ s' :=
  ⟨fun supply _ _ hplan hplanned hwithin hs =>
      execute_shows_supplied supply hshape hwork hplanned hplan hwithin hs,
    fun _ hrun hterm => execute_shows_fetched
      (q := { statements, params, packetSize := packetOfInt k, shape }) hshape hstatements hwork
      hopen hrun hterm⟩

/-- A statement with a row, and one with a row and then a set of two. -/
def numbers : List (String × Results) :=
  [("SELECT 7", { first := ⟨[], [⟨[], [.int 7]⟩], {}⟩ }),
    ("CALL numbers()", {
      first := ⟨[], [⟨[], [.int 8]⟩], {}⟩
      more := [⟨[], [⟨[], [.int 1, .int 9]⟩, ⟨[], [.int 2]⟩], {}⟩] })]

def asked : Session (Log × List (String × Results) × List RowSet) :=
  { Session.create "s1" "storehouse" {} {} ([], numbers, []) with
    active := { work := .query {
      statements := numbers.map Prod.fst, packetSize := packetOfInt 1, shape := .oneFieldList } } }

theorem execute_shows_numbers :
    ∃ s' new, Task.execute storehouse.logged asked = (.ok (), s') ∧
      Task.Sends new [Task.startEvent none, ⟨none, .ok,
        some "Full result set consisting of 2 rows transferred.", none,
        some (.result (.array [.int 1, .int 2]))⟩] asked s' ∧
      ∃ rows s₁ s₂, Yields storehouse.logged [] "CALL numbers()" rows s₁ s₂ ∧
        ∃ new, Task.Sends new [shownEvent .oneFieldList none rows] s₂ s' := by
  obtain ⟨hsupplied, hfetched⟩ := execute_shows (p := storehouse) (s := asked) [] 1 .oneFieldList
    (by simp) (show numbers.map Prod.fst ≠ [] by simp [numbers]) rfl rfl
  have hready : (storehouseSupply []).Ready numbers [] asked := ⟨rfl, rfl, rfl⟩
  obtain ⟨s', new, hrun, hsends⟩ := hsupplied (storehouseSupply []) (by simp [numbers]) rfl
    (by simp [Within, numbers, Results.sets, storehouse]) hready
  have hterm : s'.active.courier.terminal ≠ some .error := by
    obtain rfl : (Task.execute storehouse.logged asked).2 = s' := by rw [hrun]
    decide +kernel
  obtain ⟨rows, s₁, s₂, -, hyields, -, hshown⟩ := hfetched s' hrun hterm
  exact ⟨s', new, hrun, hsends, rows, s₁, s₂, hyields, hshown⟩

end Query
end DatabaseSession
