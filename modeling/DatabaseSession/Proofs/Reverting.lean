import DatabaseSession.Proofs.Attaching

namespace DatabaseSession.Sqlite

open Play Turn Library

variable {lam α : Type}

namespace Library

theorem Use.Minor.opens_nothing {n : Nat} {u : Use} (h : u.Minor n) : u.opened? = none := by
  cases u with
  | openFile => cases h
  | _ => rfl

theorem Use.opens_nothing_of_isFinalize {u : Use} (h : u.isFinalize = true) : u.opened? = none :=
  (Use.minor_of_isFinalize h).opens_nothing

theorem handleLives_concat {db : Nat} {log : List Use} {u : Use}
    (h : HandleLives db (log ++ [u])) :
    u.opened? = some db ∨ HandleLives db log ∧ u ≠ .close db := by
  obtain ⟨before, call, after, hlog, hopen, hafter⟩ := h
  rcases List.eq_nil_or_concat after with rfl | ⟨rest, last, rfl⟩
  · obtain ⟨-, hcall⟩ := List.append_inj' hlog rfl
    cases hcall
    exact .inl hopen
  · rw [List.concat_eq_append, ← List.cons_append, ← List.append_assoc] at hlog
    obtain ⟨rfl, hlast⟩ := List.append_inj' hlog rfl
    cases hlast
    simp only [List.concat_eq_append, List.mem_append, List.mem_singleton, not_or] at hafter
    exact .inr ⟨⟨before, call, rest, rfl, hopen, hafter.1⟩, fun hclose => hafter.2 hclose.symm⟩

/-- No handle is open but this one, if it is one. -/
def LivesOnly (db : Option Nat) (log : List Use) : Prop := ∀ h, HandleLives h log → db = some h

namespace LivesOnly

variable {db : Option Nat} {log calls : List Use}

theorem concat (hlog : LivesOnly db log) {u : Use} (hu : u.opened? = none) :
    LivesOnly db (log ++ [u]) := by
  intro h hlives
  rcases handleLives_concat hlives with hopen | ⟨hlives, -⟩
  · simp [hu] at hopen
  · exact hlog h hlives

theorem append (hlog : LivesOnly db log) (hcalls : ∀ u ∈ calls, u.opened? = none) :
    LivesOnly db (log ++ calls) := by
  induction calls generalizing log with
  | nil => simpa using hlog
  | cons u calls ih =>
    rw [List.append_cons]
    exact ih (hlog.concat (hcalls u (by simp))) fun v hv => hcalls v (by simp [hv])

theorem closed {h : Nat} (hlog : LivesOnly (some h) log) :
    LivesOnly none (log ++ [.close h]) := by
  intro h' hlives
  rcases handleLives_concat hlives with hopen | ⟨hlives, hne⟩
  · cases hopen
  · cases hlog h' hlives
    exact absurd rfl hne

theorem opened (hlog : LivesOnly none log) (u : Use) : LivesOnly u.opened? (log ++ [u]) := by
  intro h hlives
  rcases handleLives_concat hlives with hopen | ⟨hlives, -⟩
  · exact hopen
  · cases hlog h hlives

end LivesOnly

/-- Whatever a cursor does, it opens nothing. -/
def openingNothing (lib : Library lam) (db : Nat) (open? : Option Nat) : Watch lib db Nearby where
  Holds _ _ _ log := LivesOnly open? log
  others := by
    rintro text o st l l' h ⟨calls, hl', hcalls⟩
    rw [hl']
    exact h.append fun u hu => (hcalls u hu).opens_nothing
  call h hu := h.concat hu.minor.opens_nothing
  finalized h := h.concat rfl
  prepared h _ _ := h.concat rfl
  refused h _ _ := h.concat rfl

end Library

namespace Client

section Handles

variable {lib : Library lam}

def Tracked (w : Client × (List Use × lam)) : Prop := LivesOnly w.1.db w.2.1

theorem tracked_dropCursor : Keeps Passed Tracked (dropCursor lib.logged) := by
  intro w hw
  obtain ⟨l, hdrop, calls, hl, hcalls⟩ := dropCursor_logged lib w
  rw [hdrop]
  change LivesOnly w.1.db l.1
  rw [hl]
  exact hw.append fun u hu => Use.opens_nothing_of_isFinalize (hcalls u hu)

/-- The client has let go of its handle, and no other is open. -/
def Free (w : Client × (List Use × lam)) : Prop := w.1.db = none ∧ LivesOnly none w.2.1

theorem Free.tracked {w : Client × (List Use × lam)} (h : Free w) : Tracked w := by
  rw [Tracked, h.1]
  exact h.2

theorem free_letGo : Leads Passed Tracked (letGo lib.logged) Free := by
  intro w hw
  obtain ⟨l, hdrop, calls, hl, hcalls⟩ := dropCursor_logged lib w
  have hlives : LivesOnly w.1.db l.1 := by
    rw [hl]
    exact hw.append fun u hu => Use.opens_nothing_of_isFinalize (hcalls u hu)
  rw [letGo_of_dropCursor hdrop]
  refine ⟨rfl, ?_⟩
  cases hdb : w.1.db with
  | none =>
    rw [hdb] at hlives
    exact hlives
  | some db =>
    rw [hdb] at hlives
    exact hlives.closed

theorem tracked_letGo : Keeps Passed Tracked (letGo lib.logged) :=
  free_letGo.mono (fun _ h => h) fun _ h => h.tracked

theorem tracked_ifCursor (lib : Library lam) {m : Cursor.Move (List Use × lam) α} (a : α)
    (hm : ∀ db open?, Keeps (Cursor.LetBe Nearby)
      (fun k => ∃ st, Cursor.Watched (openingNothing lib db open?) st k) m) :
    Keeps Passed Tracked
      (Move.read >>= fun c => if c.cursor.isNone = true then pure a else onCursor m) := by
  intro w hw
  rw [read_bind]
  cases hk : w.1.cursor with
  | none => exact hw
  | some k =>
    have hwatched := hm k.db w.1.db (k, w.2) ⟨k.statement, rfl, rfl, hw⟩
    have hback : ∀ w' : Client × (List Use × lam), (w'.1.db = w.1.db ∧ ∃ k', w'.1.cursor = some k' ∧
        ∃ st, Cursor.Watched (openingNothing lib k.db w.1.db) st (k', w'.2)) → Tracked w' := by
      rintro w' ⟨hdb, k', -, st, hk'⟩
      rw [Tracked, hdb]
      exact hk'.holds
    exact (onCursor_ensures hk hwatched).mono (fun _ _ h => h) (fun _ => hback) fun _ => hback

theorem tracked_fetchRow : Keeps Passed Tracked (fetchRow lib.logged) := by
  refine tracked_ifCursor lib none fun db open? => ?_
  rintro k ⟨st, hk⟩
  exact (Cursor.watched_fetch.mono (fun _ h => h) fun _ h => ⟨st, h⟩) k hk

theorem tracked_nextResult : Keeps Passed Tracked (nextResult lib.logged) :=
  tracked_ifCursor lib false fun _ _ => Cursor.watched_advance

theorem tracked_execute (sql : String) (params : List Value) :
    Keeps Passed Tracked (execute lib.logged sql params) := by
  intro w hw
  unfold execute
  rw [read_bind]
  cases hdb : w.1.db with
  | none => exact hw
  | some db =>
    refine Keeps.bind tracked_dropCursor (fun _ => ?_) w hw
    dsimp only
    split
    · exact leads_fail _ fun _ h => h
    · -- the cursor has just been set, so that there is one
      intro w hw
      have hadvance := tracked_ifCursor lib false fun _ _ => Cursor.watched_advance
      have hbegun := hadvance
        ({ w.1 with cursor := some { db, text := Text.utf8 sql, params } }, w.2) hw
      rw [read_bind] at hbegun
      rw [update_bind]
      exact Ensures.andThen hbegun fun _ _ h => h

theorem tracked_readOut (patience : Nat) : Keeps Passed Tracked
    (Backend.readOut (fetchRow lib.logged) (nextResult lib.logged) patience) :=
  Backend.keeps_readOut tracked_fetchRow tracked_nextResult patience

theorem tracked_runOut (patience : Nat) (sql : String) :
    Keeps Passed Tracked (runOut lib.logged patience sql) :=
  (tracked_execute sql []).bind fun _ => (tracked_readOut patience).bind fun _ => tracked_dropCursor

theorem openFailure_livesOnly (code : Int) {db : Option Nat} {l : List Use × lam}
    (hl : LivesOnly db l.1) : LivesOnly none (openFailure lib.logged code db l).2.1 := by
  cases db with
  | none => exact hl
  | some db => exact LivesOnly.closed (LivesOnly.concat hl (u := .errorMessage db) rfl)

theorem tracked_setUpHandle (patience : Nat) (layout : Layout) (db : Option Nat) :
    Leads Passed (fun w => LivesOnly db w.2.1) (setUpHandle lib.logged patience layout db)
      Tracked := by
  intro w hw
  refine Keeps.bind (keeps_forM (tracked_runOut patience) layout.setupStatements).attempt
    (fun result => ?_) ({ w.1 with db, target := db }, w.2) hw
  cases result with
  | ok => exact leads_modify fun _ h => h
  | error e => exact tracked_letGo.bind fun _ => leads_fail e fun _ h => h

theorem tracked_openLayout (patience : Nat) (layout : Layout) :
    Keeps Passed Tracked (openLayout lib.logged patience layout) := by
  refine free_letGo.bind (fun _ => ?_) fun _ h => h.tracked
  dsimp only
  split
  · exact leads_fail _ fun _ h => h.tracked
  · rintro ⟨c, l⟩ ⟨hdb, hlives⟩
    have hopened : LivesOnly (lib.logged.openFile layout.path layout.flags.toWord l).1.2
        (lib.logged.openFile layout.path layout.flags.toWord l).2.1 :=
      LivesOnly.opened hlives _
    rw [call_bind]
    dsimp only
    split
    · rw [call_bind]
      exact Free.tracked ⟨hdb, openFailure_livesOnly _ hopened⟩
    · split
      · rw [call_bind]
        exact tracked_setUpHandle patience layout _ _ (hopened.concat rfl)
      · exact tracked_setUpHandle patience layout _ _ hopened

theorem tracked_openAt (patience : Nat) (base : Layout) (schema : String) :
    Keeps Passed Tracked (openAt lib.logged patience base schema) := by
  unfold openAt
  cases base.withMain schema with
  | none => exact leads_fail _ fun _ h => h
  | some layout =>
    exact (tracked_openLayout patience layout).bind fun _ => leads_modify fun _ h => h

theorem Passed.tracked {w w' : Client × (List Use × lam)} (h : Passed w w') (hw : Tracked w) :
    Tracked w' := by
  obtain ⟨hsame, calls, hlog, hcalls⟩ := h
  rw [Tracked, hsame, hlog]
  exact hw.append fun u hu => (hcalls u hu).opens_nothing

/-- Every operation leaves no handle open but the client's, however it ends. -/
theorem tracked_act (patience : Nat) (act : Act) :
    Keeps Passed Tracked (act.play lib.logged patience) := by
  cases act with
  | openBase base => exact tracked_openAt patience base base.name
  | connect options => exact keeps_connect_of (tracked_openAt patience) options
  | disconnect => exact tracked_letGo
  | execute sql params => exact tracked_execute sql params
  | fetchRow => exact tracked_fetchRow.bind fun _ => leads_pure () fun _ h => h
  | nextResult => exact tracked_nextResult.bind fun _ => leads_pure () fun _ h => h
  | ping => exact (tracked_execute "SELECT 1" []).bind fun _ => tracked_readOut patience
  | setSchema schema => exact keeps_setSchema_of (tracked_openAt patience) schema
  | interrupt key =>
    refine leads_modify fun w hw => ?_
    have hpassed : Passed w (Client.interrupt lib.logged key w) :=
      interrupted_passed (.single ⟨key, rfl⟩)
    exact hpassed.tracked hw

end Handles

section Settings

variable {lib : Library lam} {c : Client}

/-- The client has the layout and the schema of that one. -/
def SetLike (c : Client) (w : Client × lam) : Prop :=
  w.1.base = c.base ∧ w.1.schema = c.schema

theorem Stands.setLike {w : Client × lam} (h : Stands c w) : SetLike c w := ⟨h.base_eq, h.schema_eq⟩

theorem setLike_of_leads {m : Move lam α} (hm : ∀ c, Leads Aloof (Stands c) m (SetLike c)) :
    Keeps Aloof (SetLike c) m := by
  rintro w ⟨hbase, hschema⟩
  have hback : ∀ w' : Client × lam, SetLike w.1.standing w' → SetLike c w' :=
    fun w' h => ⟨h.1.trans hbase, h.2.trans hschema⟩
  exact (hm w.1.standing w rfl).mono (fun _ _ h => h) (fun _ => hback) fun _ => hback

theorem setLike_letGo : Keeps Aloof (SetLike c) (letGo lib) :=
  setLike_of_leads fun _ => stands_letGo.mono (fun _ h => h) fun _ h => ⟨h.base_eq, h.schema_eq⟩

theorem setLike_runOut (patience : Nat) (sql : String) :
    Keeps Aloof (SetLike c) (runOut lib patience sql) :=
  setLike_of_leads fun _ =>
    (stands_runOut lib patience sql).mono (fun _ h => h) fun _ h => h.setLike

theorem setLike_setUpHandle (patience : Nat) (layout : Layout) (db : Option Nat) :
    Keeps Aloof (SetLike c) (setUpHandle lib patience layout db) := by
  intro w hw
  refine Keeps.bind (keeps_forM (setLike_runOut patience) layout.setupStatements).attempt
    (fun result => ?_) ({ w.1 with db, target := db }, w.2) hw
  cases result with
  | ok => exact leads_modify fun _ h => h
  | error e => exact setLike_letGo.bind fun _ => leads_fail e fun _ h => h

/-- However the opening of a layout ends, the client is still set to the layout and the schema
before. -/
theorem setLike_openLayout (lib : Library lam) (patience : Nat) (layout : Layout) :
    Keeps Aloof (SetLike c) (openLayout lib patience layout) := by
  refine setLike_letGo.bind fun _ => ?_
  dsimp only
  split
  · exact leads_fail _ fun _ h => h
  · rintro ⟨c', l⟩ hw
    rw [call_bind]
    dsimp only
    split
    · rw [call_bind]
      exact hw
    · split
      · rw [call_bind]
        exact setLike_setUpHandle patience layout _ _ hw
      · exact setLike_setUpHandle patience layout _ _ hw

theorem openLayout_path (lib : Library lam) (patience : Nat) (layout : Layout) (w : Client × lam) :
    (openLayout lib patience layout w).Ensures Aloof (fun _ _ => '\x00' ∉ layout.path.toList)
      fun _ _ => True := by
  refine Ensures.andThen (Ensures.mono (fun _ _ h => h) (fun _ _ h => h) (fun _ _ h => h)
    (Ensures.trivial (letGo lib w))) fun _ w _ => ?_
  dsimp only
  split
  · exact trivial
  · next hpath =>
    refine (Ensures.trivial _).mono (fun _ _ h => h) (fun _ _ _ => ?_) fun _ _ h => h
    simpa using hpath

/-- The schema that the client is set to has been open: it is one of the layout, and its path can be
opened. -/
def Settled (w : Client × lam) : Prop := ∀ base, w.1.base = some base →
  ∃ schema r, w.1.schema = some schema ∧ base.withMain schema = some r ∧ '\x00' ∉ r.path.toList

theorem SetLike.settled {w w' : Client × lam} (h : SetLike w.1 w') (hw : Settled w) :
    Settled w' := by
  rw [Settled, h.1, h.2]
  exact hw

theorem settled_of_setLike {m : Move lam α} (hm : ∀ c, Keeps Aloof (SetLike c) m) :
    Keeps Aloof Settled m := by
  intro w hw
  exact (hm w.1 w ⟨rfl, rfl⟩).mono (fun _ _ h => h) (fun _ _ h => h.settled hw)
    fun _ _ h => h.settled hw

theorem settled_openAt (patience : Nat) (base : Layout) (schema : String) :
    Keeps Aloof Settled (openAt lib patience base schema) := by
  intro w hw
  unfold openAt
  cases hmain : base.withMain schema with
  | none => exact hw
  | some r =>
    have hopen := settled_of_setLike (fun _ => setLike_openLayout lib patience r) w hw
    have hboth := hopen.and (openLayout_path lib patience r w)
    refine Ensures.andThen (hboth.mono (fun _ _ h => h) (fun _ _ h => h) fun _ _ h => h.1) ?_
    rintro _ w' ⟨-, hpath⟩ _ ⟨⟩
    exact ⟨schema, r, rfl, hmain, hpath⟩

theorem settled_act (lib : Library lam) (patience : Nat) (act : Act) :
    Keeps Aloof Settled (act.play lib patience) := by
  cases hopens : act.opens with
  | false =>
    refine settled_of_setLike fun c => setLike_of_leads fun c => ?_
    refine (Act.stands hopens patience).mono (fun _ h => h) ?_
    rintro w (h | h)
    · exact h.setLike
    · exact ⟨h.base_eq, h.schema_eq⟩
  | true =>
    cases act with
    | openBase base => exact settled_openAt patience base base.name
    | connect o => exact keeps_connect_of (settled_openAt patience) o
    | setSchema schema => exact keeps_setSchema_of (settled_openAt patience) schema
    | _ => cases hopens

end Settings

theorem Lives.settled {lib : Library lam} {patience : Nat} {w₀ w : Client × lam}
    (h₀ : Settled w₀) (h : Lives lib patience w₀ w) : Settled w := by
  induction h with
  | refl => exact h₀
  | act _ act hact ih =>
    have hkeeps := settled_act lib patience act _ ih
    exact (hkeeps.mono (fun _ _ => interrupted_aloof) (fun _ _ h => h) fun _ _ h => h).of_plays hact

theorem tracked_of_plays {lib : Library lam} {m : Move (List Use × lam) α}
    (hm : Keeps Passed Tracked m) {w w' : Client × (List Use × lam)} (hw : Tracked w)
    {x : Except Stop α} (h : (m w).Plays (Interrupted lib.logged) x w') : Tracked w' :=
  ((hm w hw).mono (fun _ _ => interrupted_passed) (fun _ _ h => h) fun _ _ h => h).of_plays h

theorem Lives.tracked {lib : Library lam} {patience : Nat} {w₀ w : Client × (List Use × lam)}
    (h₀ : Tracked w₀) (h : Lives lib.logged patience w₀ w) : Tracked w := by
  induction h with
  | refl => exact h₀
  | act _ act hact ih => exact tracked_of_plays (tracked_act patience act) ih hact

section Verdicts

variable {lib : Library lam} {patience : Nat} {r : Layout} {w w' : Client × lam}

/-- The library once it was told how long to wait for a lock. -/
def waiting (lib : Library lam) (r : Layout) (db : Option Nat) (l : lam) : lam :=
  if 0 < r.busyTimeout then (lib.busyTimeout db (min r.busyTimeout 0x7FFFFFFF) l).2 else l

/-- What the library says to a layout that a client without a handle opens: it accepts it, or it
does not. -/
inductive Verdict (lib : Library lam) (patience : Nat) (r : Layout) (w : Client × lam) :
    Bool → Prop where
  /-- It hands out a handle, and all setup statements run on it. -/
  | accepted {db : Nat} {l : lam} {w' : Client × lam}
      (hopen : lib.openFile r.path r.flags.toWord w.2 = ((okCode, some db), l))
      (hsetUp : (r.setupStatements.forM (runOut lib patience)
        ({ w.1 with db := some db, target := some db }, waiting lib r (some db) l)).Plays
          (Interrupted lib) (.ok ()) w') : Verdict lib patience r w true
  | unopened {code : Int} {db : Option Nat} {l : lam}
      (hopen : lib.openFile r.path r.flags.toWord w.2 = ((code, db), l))
      (hnone : code ≠ okCode ∨ db = none) : Verdict lib patience r w false
  | unsettled {db : Nat} {l : lam} {w' : Client × lam} {e : Error}
      (hopen : lib.openFile r.path r.flags.toWord w.2 = ((okCode, some db), l))
      (hsetUp : (r.setupStatements.forM (runOut lib patience)
        ({ w.1 with db := some db, target := some db }, waiting lib r (some db) l)).Plays
          (Interrupted lib) (.error (.error e)) w') : Verdict lib patience r w false

theorem letGo_apply (lib : Library lam) (w : Client × lam) :
    ∃ w', letGo lib w = .done (.ok ()) w' ∧ w'.1.db = none := by
  obtain ⟨l, hdrop⟩ := dropCursor_apply lib w
  exact ⟨_, letGo_of_dropCursor hdrop, rfl⟩

theorem setUpHandle_plays {db : Option Nat} {y : Except Error Unit}
    (h : (setUpHandle lib patience r db w).Plays (Interrupted lib) (y.mapError .error) w') :
    ∃ w₁, (r.setupStatements.forM (runOut lib patience)
      ({ w.1 with db, target := db }, w.2)).Plays (Interrupted lib) (y.mapError .error) w₁ ∧
      (y = .ok () → w'.1.db = db ∧ w'.1.layout = some r) ∧ ∀ e, y = .error e → w'.1.db = none := by
  unfold setUpHandle at h
  rw [update_bind] at h
  obtain ⟨z, w₁, hrun, hrest⟩ := Plays.of_attempt_andThen h
  cases z with
  | ok =>
    have hstands := of_interrupted
      (keeps_forM (stands_runOut lib patience) r.setupStatements _ rfl) hrun
    have hy : y = .ok () ∧ w' = ({ w₁.1 with layout := some r }, w₁.2) := by
      rcases y with e | _ <;> cases hrest
      exact ⟨rfl, rfl⟩
    obtain ⟨rfl, rfl⟩ := hy
    exact ⟨w₁, hrun, fun _ => ⟨hstands.db_eq, rfl⟩, by simp⟩
  | error e =>
    obtain ⟨w₂, hgone, hdb⟩ := letGo_apply lib w₁
    dsimp only at hrest
    rw [bind_of_done hgone] at hrest
    rcases y with e' | _ <;> cases hrest
    exact ⟨w₁, hrun, by simp, fun _ _ => hdb⟩

/-- A layout is open if and only if the library accepts it. -/
theorem openLayout_verdict (hpath : '\x00' ∉ r.path.toList) {y : Except Error Unit}
    (h : (openLayout lib patience r w).Plays (Interrupted lib) (y.mapError .error) w') :
    ∃ w₁ accepted, letGo lib w = .done (.ok ()) w₁ ∧ Verdict lib patience r w₁ accepted ∧
      (accepted = true → w'.1.isConnected = true ∧ w'.1.layout = some r) ∧
      (accepted = false → w'.1.isConnected = false) := by
  obtain ⟨w₁, hgone, hdb⟩ := letGo_apply lib w
  refine ⟨w₁, ?_⟩
  unfold openLayout at h
  rw [bind_of_done hgone] at h
  dsimp only at h
  rw [if_neg (by simpa using hpath), call_bind] at h
  rcases hopen : lib.openFile r.path r.flags.toWord w₁.2 with ⟨⟨code, db⟩, l⟩
  rw [hopen] at h
  dsimp only at h
  split at h
  · next hcode =>
    rw [call_bind] at h
    rcases y with e | _ <;> cases h
    exact ⟨false, hgone, .unopened hopen (.inl hcode), by simp, fun _ => by simp [isConnected, hdb]⟩
  · next hcode =>
    obtain rfl := not_not.mp hcode
    -- the wait for a lock is part of how the verdict is found
    have hplays : (setUpHandle lib patience r db (w₁.1, waiting lib r db l)).Plays
        (Interrupted lib) (y.mapError .error) w' := by
      unfold waiting
      split at h
      · next hwait =>
        rw [call_bind] at h
        rw [if_pos hwait]
        exact h
      · next hwait =>
        rw [if_neg hwait]
        exact h
    obtain ⟨w₂, hrun, hok, herror⟩ := setUpHandle_plays hplays
    cases db with
    | none =>
      refine ⟨false, hgone, .unopened hopen (.inr rfl), by simp, fun _ => ?_⟩
      rcases y with e | _
      · simp [isConnected, herror e rfl]
      · simp [isConnected, (hok rfl).1]
    | some db =>
      rcases y with e | _
      · exact ⟨false, hgone, .unsettled hopen hrun, by simp,
          fun _ => by simp [isConnected, herror e rfl]⟩
      · exact ⟨true, hgone, .accepted hopen hrun,
          fun _ => ⟨by simp [isConnected, (hok rfl).1], (hok rfl).2⟩, by simp⟩

theorem openAt_verdict {base : Layout} {schema : String} (hmain : base.withMain schema = some r)
    (hpath : '\x00' ∉ r.path.toList) {y : Except Error Unit}
    (h : (openAt lib patience base schema w).Plays (Interrupted lib) (y.mapError .error) w') :
    ∃ w₁ accepted, letGo lib w = .done (.ok ()) w₁ ∧ Verdict lib patience r w₁ accepted ∧
      (accepted = true → w'.1.isConnected = true ∧ w'.1.layout = some r) ∧
      (accepted = false → w'.1.isConnected = false) := by
  unfold openAt at h
  rw [hmain] at h
  rcases Plays.of_andThen h with ⟨⟨⟩, w₁, hopen, hrest⟩ | ⟨stop, hstop, hopen⟩
  · have hw' : w' = ({ w₁.1 with schema := some schema, base := some base }, w₁.2) := by
      rcases y with e | _ <;> cases hrest
      rfl
    subst hw'
    have hok : (Except.ok () : Except Error Unit).mapError Stop.error = .ok () := rfl
    rw [← hok] at hopen
    obtain ⟨w₂, accepted, hgone, hverdict, htrue, hfalse⟩ := openLayout_verdict hpath hopen
    exact ⟨w₂, accepted, hgone, hverdict, htrue, hfalse⟩
  · rw [← hstop] at hopen
    exact openLayout_verdict hpath hopen

/-- A switch that fails was refused at once with nothing done, or it was made in vain and then the
schema before was opened again. -/
theorem setSchema_fails {schema : String} {e : Error}
    (h : (setSchema lib patience schema w).Plays (Interrupted lib) (.error (.error e)) w') :
    ((¬∃ base, w.1.base = some base ∧ base.holds schema = true) ∧ w' = w) ∨
      ∃ base w₁ y, w.1.base = some base ∧ base.holds schema = true ∧
        (openAt lib patience base schema w).Plays (Interrupted lib) (.error (.error e)) w₁ ∧
        (openAt lib patience base (w.1.schema.getD base.name) w₁).Plays (Interrupted lib)
          (Except.mapError .error y) w' := by
  unfold setSchema at h
  rw [read_bind] at h
  cases hbase : w.1.base with
  | none =>
    rw [hbase] at h
    cases h
    exact .inl ⟨by simp, rfl⟩
  | some base =>
    rw [hbase] at h
    dsimp only at h
    split at h
    · next hnot =>
      cases h
      exact .inl ⟨by simpa using hnot, rfl⟩
    · next hholds =>
      rw [Bool.not_eq_true', Bool.not_eq_false] at hholds
      split at h
      · cases h
      · have herror : (Except.error (.error e) : Except Stop Unit) =
            (Except.error e : Except Error Unit).mapError Stop.error := rfl
        rw [herror] at h
        obtain ⟨x, w₁, hswitch, hrest⟩ := Plays.of_attempt_andThen h
        cases x with
        | ok => cases hrest
        | error e' =>
          -- whatever becomes of the way back, the first error is the one that is reported
          obtain ⟨y, w₂, hback, hfail⟩ := Plays.of_attempt_andThen hrest
          cases hfail
          exact .inr ⟨base, w₁, y, rfl, hholds, hswitch, hback⟩

theorem setLike_of_reopened {base : Layout} {schema previous : String}
    (hbase : w.1.base = some base) (hschema : w.1.schema = some previous)
    (hholds : base.holds schema = true)
    (hprevious : base.holds previous = true) {e : Error} {w₁ : Client × lam} {y : Except Error Unit}
    (hswitch : (openAt lib patience base schema w).Plays (Interrupted lib) (.error (.error e)) w₁)
    (hback : (openAt lib patience base previous w₁).Plays (Interrupted lib)
      (y.mapError .error) w') : SetLike w.1 w' := by
  have hfallen : Stands { w.1.standing with db := none } w₁ :=
    of_interrupted (openAt_opened lib patience hholds rfl) hswitch e rfl
  have hends := of_interrupted (openAt_opened lib patience hprevious hfallen) hback
  rcases y with e' | _
  · exact ⟨(hends e' rfl).base_eq, (hends e' rfl).schema_eq⟩
  · obtain ⟨l, db, -, hstands, -⟩ := hends
    exact ⟨hstands.base_eq.trans hbase.symm, hstands.schema_eq.trans hschema.symm⟩

end Verdicts

/-- A switch that fails is undone: the client is set to the layout and the schema before. A name
that the layout has not is refused with nothing done. Otherwise the error is that of the opening in
vain; then the schema before is opened again. If the library accepts that, what is open is the
layout with that schema as its main database, and if not, no handle is open. -/
theorem failed_switch_undone {lib : Library lam} {patience key : Nat} {l : lam}
    {w w' : Client × (List Use × lam)} {schema : String} {e : Error}
    (h : Lives lib.logged patience ({ key }, ([], l)) w)
    (hswitch : ((backend lib.logged patience).setCurrentSchema schema w).Plays
      (Interrupted lib.logged) (.error (.error e)) w') :
    w'.1.base = w.1.base ∧
      (backend lib.logged patience).currentSchema w' = .done (.ok w.1.schema) w' ∧
      (backend lib.logged patience).defaultSchema w' = .done (.ok (w.1.base.map Layout.name)) w' ∧
      ((¬∃ base, w.1.base = some base ∧ ∃ d ∈ base.databases, d.name = schema) → w' = w) ∧
      ∀ base, w.1.base = some base → (∃ d ∈ base.databases, d.name = schema) →
        ∃ previous r w₁ y, w.1.schema = some previous ∧ base.withMain previous = some r ∧
          (openAt lib.logged patience base schema w).Plays (Interrupted lib.logged)
            (.error (.error e)) w₁ ∧
          (openAt lib.logged patience base previous w₁).Plays (Interrupted lib.logged)
            (Except.mapError .error y) w' ∧
          ∃ w₂ accepted, letGo lib.logged w₁ = .done (.ok ()) w₂ ∧
            Verdict lib.logged patience r w₂ accepted ∧
            (accepted = true → w'.1.isConnected = true ∧ w'.1.layout = some r) ∧
            (accepted = false → w'.1.isConnected = false ∧ ∀ db, ¬HandleLives db w'.2.1) := by
  have hsettled : Settled w := h.settled (by simp [Settled])
  have htracked : Tracked w' :=
    tracked_of_plays (keeps_setSchema_of (tracked_openAt patience) schema)
      (h.tracked (by simp [Tracked, LivesOnly, HandleLives])) hswitch
  have hlike : SetLike w.1 w' → w'.1.base = w.1.base ∧
      (backend lib.logged patience).currentSchema w' = .done (.ok w.1.schema) w' ∧
      (backend lib.logged patience).defaultSchema w' =
        .done (.ok (w.1.base.map Layout.name)) w' := by
    rintro ⟨hbase, hschema⟩
    rw [← hbase, ← hschema]
    exact ⟨rfl, rfl, rfl⟩
  simp only [← Layout.holds_iff]
  -- a switch that was refused has done nothing; any other has gone back
  rcases setSchema_fails hswitch with ⟨hnot, rfl⟩ | ⟨base, w₁, y, hbase, hholds, hfirst, hback⟩
  · obtain ⟨h₁, h₂, h₃⟩ := hlike ⟨rfl, rfl⟩
    exact ⟨h₁, h₂, h₃, fun _ => rfl, fun base hbase hholds => absurd ⟨base, hbase, hholds⟩ hnot⟩
  · obtain ⟨previous, r, hschema, hmain, hpath⟩ := hsettled base hbase
    have hprevious : base.holds previous = true := by
      rw [← Layout.withMain_isSome, hmain]
      rfl
    rw [hschema, Option.getD_some] at hback
    obtain ⟨h₁, h₂, h₃⟩ :=
      hlike (setLike_of_reopened hbase hschema hholds hprevious hfirst hback)
    refine ⟨h₁, h₂, h₃, fun hnot => absurd ⟨base, hbase, hholds⟩ hnot, ?_⟩
    rintro base' hbase' -
    cases hbase.symm.trans hbase'
    obtain ⟨w₂, accepted, hgone, hverdict, htrue, hfalse⟩ := openAt_verdict hmain hpath hback
    refine ⟨previous, r, w₁, y, hschema, hmain, hfirst, hback, w₂, accepted, hgone, hverdict, htrue,
      fun hrefused => ⟨hfalse hrefused, fun db hlives => ?_⟩⟩
    have hopen := hfalse hrefused
    rw [isConnected, htracked db hlives] at hopen
    cases hopen

namespace Undone

open Rehearsal

def layout : Layout :=
  { path := "a.db", name := "a", attachments := [⟨"b", "b.db"⟩, ⟨"c", "c.db"⟩] }

/-- The first database is open, and the next opening will fail. -/
def opened : Option (Client × (List Use × World)) :=
  Reopened.run Engine.library.logged 5 [.openBase layout] ({}, ([], Reopened.world))

def failedOpen : Turn (Client × (List Use × World)) Unit → Bool
  | .done (.error (.error _)) w => w.1.isConnected
  | _ => false

theorem exists_of_failedOpen {t : Turn (Client × (List Use × World)) Unit}
    (h : failedOpen t = true) :
    ∃ e w, t = .done (.error (.error e)) w ∧ w.1.isConnected = true := by
  unfold failedOpen at h
  split at h
  · exact ⟨_, _, rfl, h⟩
  · cases h

/-- The library accepts the layout once more. -/
theorem failed_switch_undone_reopened :
    ∃ w w' e, opened = some w ∧
      (backend Engine.library.logged 5).setCurrentSchema "b" w = .done (.error (.error e)) w' ∧
      (backend Engine.library.logged 5).currentSchema w' = .done (.ok (some "a")) w' ∧
      (∃ w₂, Verdict Engine.library.logged 5 layout w₂ true) ∧ w'.1.layout = some layout := by
  have hopened : opened.map (fun w => (w.1.schema, w.1.base,
      failedOpen ((backend Engine.library.logged 5).setCurrentSchema "b" w))) =
      some (some "a", some layout, true) := by
    decide +kernel
  obtain ⟨w, hw, hfacts⟩ := Option.map_eq_some_iff.mp hopened
  simp only [Prod.mk.injEq] at hfacts
  obtain ⟨hschema, hbase, hfailed⟩ := hfacts
  obtain ⟨e, w', hswitch, hconnected⟩ := exists_of_failedOpen hfailed
  obtain ⟨-, hcurrent, -, -, hback⟩ :=
    failed_switch_undone (Reopened.lives_of_run .refl hw) (hswitch ▸ Plays.done _ _)
  obtain ⟨previous, r, -, -, hprevious, hmain, -, -, w₂, accepted, -, hverdict, htrue, hfalse⟩ :=
    hback layout hbase ⟨⟨"b", "b.db"⟩, by decide, rfl⟩
  have hsame : layout.withMain "a" = some layout := by decide +kernel
  cases hschema.symm.trans hprevious
  cases hsame.symm.trans hmain
  cases accepted with
  | false =>
    have hgone := (hfalse rfl).1
    rw [hconnected] at hgone
    cases hgone
  | true =>
    rw [hschema] at hcurrent
    exact ⟨w, w', e, hw, hswitch, hcurrent, ⟨w₂, hverdict⟩, (htrue rfl).2⟩

end Undone
end Client
end DatabaseSession.Sqlite
