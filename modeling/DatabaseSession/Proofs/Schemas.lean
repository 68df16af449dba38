import DatabaseSession.Proofs.Disposal

namespace DatabaseSession.Sqlite

open Play Turn

variable {lam α : Type}

/-- An opening that succeeds hands out a handle. -/
def Library.Forthcoming (lib : Library lam) : Prop := ∀ path flags l,
  (lib.openFile path flags l).1.1 = okCode → (lib.openFile path flags l).1.2.isSome = true

theorem Layout.holds_iff {l : Layout} {schema : String} :
    l.holds schema = true ↔ ∃ d ∈ l.databases, d.name = schema := by
  simp [holds]

namespace Client

/-- What the client is set to, apart from what it is reading and from what can interrupt that. -/
def standing (c : Client) : Client := { c with target := none, cursor := none, stats := {} }

def Stands (c : Client) (w : Client × lam) : Prop := w.1.standing = c

/-- Others may use the library, but they let the client be. -/
def Aloof (w w' : Client × lam) : Prop := w'.1 = w.1

variable {lib : Library lam} {c : Client}

theorem Stands.update {w : Client × lam} (hw : Stands c w) (f : Client → Client)
    (hf : ∀ c, (f c).standing = f c.standing) (l : lam) : Stands (f c) (f w.1, l) :=
  (hf w.1).trans (congrArg f hw)

theorem Stands.db_eq {w : Client × lam} (hw : Stands c w) : w.1.db = c.db := by
  subst hw
  rfl

theorem Stands.base_eq {w : Client × lam} (hw : Stands c w) : w.1.base = c.base := by
  subst hw
  rfl

theorem Stands.schema_eq {w : Client × lam} (hw : Stands c w) : w.1.schema = c.schema := by
  subst hw
  rfl

theorem interrupted_aloof {w w' : Client × lam} (h : Interrupted lib w w') : Aloof w w' := by
  induction h with
  | refl => rfl
  | tail _ hstep ih =>
    obtain ⟨key, rfl⟩ := hstep
    refine Eq.trans ?_ ih
    unfold interrupt
    split
    · split <;> rfl
    · rfl

theorem of_interrupted {Q : α → Client × lam → Prop} {E : Stop → Client × lam → Prop}
    {t : Turn (Client × lam) α} (ht : t.Ensures Aloof Q E) {x : Except Stop α} {w : Client × lam}
    (h : t.Plays (Interrupted lib) x w) : Fares Q E x w :=
  (ht.mono (fun _ _ => interrupted_aloof) (fun _ _ h => h) fun _ _ h => h).fares h

theorem dropCursor_apply (lib : Library lam) (w : Client × lam) :
    ∃ l, dropCursor lib w = .done (.ok ()) ({ w.1 with cursor := none }, l) := by
  unfold dropCursor
  rw [read_bind]
  dsimp only
  cases w.1.cursor.bind Cursor.statement with
  | none => exact ⟨_, rfl⟩
  | some statement => exact ⟨_, rfl⟩

theorem stands_dropCursor : Keeps Aloof (Stands c) (dropCursor lib) := by
  intro w hw
  obtain ⟨l, hdrop⟩ := dropCursor_apply lib w
  rw [hdrop]
  exact hw

theorem stands_letGo : Leads Aloof (Stands c) (letGo lib) (Stands { c with db := none }) := by
  rintro w rfl
  obtain ⟨l, hdrop⟩ := dropCursor_apply lib w
  rw [letGo_of_dropCursor hdrop]
  rfl

theorem stands_onCursor (m : Cursor.Move lam α) : Keeps Aloof (Stands c) (onCursor m) := by
  intro w hw
  refine Ensures.focus (F := Stands c) ?_ ?_ ?_ (Ensures.trivial (R := fun _ _ => True) _) hw
  · intro k w w' hw haloof
    exact ⟨(congrArg standing haloof).trans hw, True.intro⟩
  · exact fun _ _ _ hw _ => hw
  · exact fun _ _ _ hw _ => hw

theorem stands_fetchRow : Keeps Aloof (Stands c) (fetchRow lib) := by
  intro w hw
  unfold fetchRow
  rw [read_bind]
  split
  · exact hw
  · exact stands_onCursor _ w hw

theorem stands_nextResult : Keeps Aloof (Stands c) (nextResult lib) := by
  intro w hw
  unfold nextResult
  rw [read_bind]
  split
  · exact hw
  · exact stands_onCursor _ w hw

theorem stands_execute (sql : String) (params : List Value) :
    Keeps Aloof (Stands c) (execute lib sql params) := by
  intro w hw
  unfold execute
  rw [read_bind]
  cases w.1.db with
  | none => exact hw
  | some db =>
    refine Keeps.bind stands_dropCursor (fun _ => ?_) w hw
    dsimp only
    split
    · exact leads_fail _ fun _ h => h
    · have hbegun : Keeps Aloof (Stands c) (Move.update fun c =>
          { c with cursor := some { db, text := Text.utf8 sql, params } } : Move lam Unit) :=
        leads_modify fun _ h => h
      exact hbegun.bind fun _ => (stands_onCursor _).bind fun _ => leads_pure () fun _ h => h

theorem stands_readOut (patience : Nat) :
    Keeps Aloof (Stands c) (Backend.readOut (fetchRow lib) (nextResult lib) patience) :=
  Backend.keeps_readOut stands_fetchRow stands_nextResult patience

theorem stands_runOut (lib : Library lam) (patience : Nat) (sql : String) :
    Keeps Aloof (Stands c) (runOut lib patience sql) :=
  (stands_execute sql []).bind fun _ => (stands_readOut patience).bind fun _ => stands_dropCursor

/-- The client stands as it did before it failed with an error, but for its handle. -/
def Fallen (c : Client) (stop : Stop) (w : Client × lam) : Prop :=
  ∀ e, stop = .error e → Stands { c with db := none } w

theorem letGo_fallen {w : Client × lam} (hw : Stands c w) :
    (letGo lib w).Ensures Aloof (fun _ => Stands { c with db := none }) (Fallen c) :=
  (stands_letGo w hw).mono (fun _ _ h => h) (fun _ _ h => h) fun _ _ h _ _ => h

/-- A handle that cannot be set up is let go of. -/
theorem setUpHandle_stands (patience : Nat) (l : Layout) {db : Option Nat} {w : Client × lam}
    (hw : Stands { c with db := none } w) :
    (setUpHandle lib patience l db w).Ensures Aloof
      (fun _ => Stands { c with db, layout := some l }) (Fallen c) := by
  have hopen : Stands { c with db } (({ w.1 with db, target := db }, w.2) : Client × lam) :=
    hw.update (fun c => { c with db }) (fun _ => rfl) w.2
  have hrun := keeps_forM (stands_runOut lib patience) l.setupStatements _ hopen
  unfold setUpHandle
  rw [update_bind]
  refine Ensures.andThen (hrun.attempted.mono (fun _ _ h => h) (fun _ _ h => h) ?_) ?_
  · exact fun stop w' h e he => absurd he (h.1 e)
  · rintro (e | _) w' hw'
    · exact Ensures.andThen (letGo_fallen (c := { c with db }) hw') fun _ _ hgone _ _ => hgone
    · exact hw'.update (fun c => { c with layout := some l }) (fun _ => rfl) _

theorem openLayout_stands (patience : Nat) (l : Layout) {w : Client × lam} (hw : Stands c w) :
    (openLayout lib patience l w).Ensures Aloof
      (fun _ w' => ∃ db, Stands { c with db, layout := some l } w' ∧
        (lib.Forthcoming → db.isSome = true)) (Fallen c) := by
  refine Ensures.andThen (letGo_fallen hw) fun _ w hw => ?_
  dsimp only
  split
  · exact fun _ _ => hw
  · cases hopen : lib.openFile l.path l.flags.toWord w.2 with
    | mk r l' =>
      obtain ⟨code, db⟩ := r
      have hhanded : code = okCode → lib.Forthcoming → db.isSome = true := by
        intro hcode hlib
        have hsome := hlib l.path l.flags.toWord w.2
        rw [hopen] at hsome
        exact hsome hcode
      rw [call_bind, hopen]
      dsimp only
      split
      · rw [call_bind]
        exact fun _ _ => hw
      · next hcode =>
        have hset : ∀ l'' : lam, Stands { c with db := none } (w.1, l'') := fun _ => hw
        refine Ensures.mono (fun _ _ h => h)
          (fun _ _ h => ⟨db, h, hhanded (not_not.mp hcode)⟩) (fun _ _ h => h) ?_
        split
        · rw [call_bind]
          exact setUpHandle_stands patience l (hset _)
        · exact setUpHandle_stands patience l (hset _)

/-- The client with this schema of this layout opened as the main database. -/
def Opened (lib : Library lam) (c : Client) (base : Layout) (schema : String)
    (w : Client × lam) : Prop :=
  ∃ l db, base.withMain schema = some l ∧
    Stands { c with db, layout := some l, base := some base, schema := some schema } w ∧
    (lib.Forthcoming → db.isSome = true)

theorem openAt_opened (lib : Library lam) (patience : Nat) {base : Layout} {schema : String}
    (hholds : base.holds schema = true) {w : Client × lam} (hw : Stands c w) :
    (openAt lib patience base schema w).Ensures Aloof (fun _ => Opened lib c base schema)
      (Fallen c) := by
  rw [← Layout.withMain_isSome] at hholds
  obtain ⟨l, hmain⟩ := Option.isSome_iff_exists.mp hholds
  unfold openAt
  rw [hmain]
  refine Ensures.andThen (openLayout_stands patience l hw) ?_
  rintro _ w' ⟨db, hw', hdb⟩
  exact ⟨l, db, hmain, hw'.update (fun c => { c with schema := some schema, base := some base })
    (fun _ => rfl) _, hdb⟩

theorem holds_name (base : Layout) : base.holds base.name = true := by
  simp [Layout.holds, Layout.databases, Layout.main]

theorem holds_connectSchema (c : Client) (base : Layout) :
    base.holds (c.connectSchema base) = true := by
  unfold connectSchema
  split
  · split
    · assumption
    · exact holds_name base
  · exact holds_name base

theorem connect_opened (patience : Nat) (o : Options) {w : Client × lam} (hw : Stands c w) :
    (connect lib patience o w).Ensures Aloof
      (fun _ w' => ∃ base, Layout.ofOptions o = .ok base ∧
        Opened lib c base (c.connectSchema base) w')
      fun stop w' => Stands c w' ∨ Fallen c stop w' := by
  unfold connect
  cases hbase : Layout.ofOptions o with
  | error e => exact .inl hw
  | ok base =>
    have hschema : w.1.connectSchema base = c.connectSchema base := by
      subst hw
      rfl
    dsimp only
    rw [read_bind, hschema]
    exact (openAt_opened lib patience (holds_connectSchema c base) hw).mono (fun _ _ h => h)
      (fun _ _ h => ⟨base, rfl, h⟩) fun _ _ h => .inr h

/-- The client has a schema if it has a layout, and the schema is one of it. What is open is the
layout with that schema as its main database. -/
structure Rooted (c : Client) : Prop where
  settled : c.base.isSome = true ↔ c.schema.isSome = true
  named : ∀ base schema, c.base = some base → c.schema = some schema →
    ∃ d ∈ base.databases, d.name = schema
  rooted : c.isConnected = true → ∃ base schema, c.base = some base ∧ c.schema = some schema ∧
    c.layout = base.withMain schema

theorem Rooted.of_standing (h : Rooted c.standing) : Rooted c := ⟨h.settled, h.named, h.rooted⟩

theorem Rooted.standing (h : Rooted c) : Rooted c.standing := ⟨h.settled, h.named, h.rooted⟩

theorem Rooted.closed (h : Rooted c) : Rooted { c with db := none } := ⟨h.settled, h.named, nofun⟩

theorem Opened.rooted {base : Layout} {schema : String} {w : Client × lam}
    (h : Opened lib c base schema w) : Rooted w.1 := by
  obtain ⟨l, db, hmain, hw, -⟩ := h
  apply Rooted.of_standing
  rw [hw]
  refine ⟨by simp, ?_, fun _ => ⟨base, schema, rfl, rfl, hmain.symm⟩⟩
  rintro _ _ ⟨⟩ ⟨⟩
  rw [← Layout.holds_iff, ← Layout.withMain_isSome, hmain]
  rfl

theorem Rooted.holds (h : Rooted c) {base : Layout} (hbase : c.base = some base) :
    base.holds (c.schema.getD base.name) = true := by
  obtain ⟨schema, hschema⟩ := Option.isSome_iff_exists.mp (h.settled.mp (by simp [hbase]))
  rw [hschema]
  exact Layout.holds_iff.mpr (h.named base schema hbase hschema)

/-- A switch that fails leaves the client as it was, or back at the schema before, or without a
handle. -/
theorem setSchema_opened (patience : Nat) (schema : String) (hc : Rooted c) {w : Client × lam}
    (hw : Stands c w) :
    (setSchema lib patience schema w).Ensures Aloof
      (fun _ w' => ∃ base, c.base = some base ∧
        (c.schema = some schema ∧ c.isConnected = true ∧ Stands c w' ∨ Opened lib c base schema w'))
      fun stop w' => Stands c w' ∨ Fallen c stop w' ∨
        ∃ base, c.base = some base ∧ Opened lib c base (c.schema.getD base.name) w' := by
  subst hw
  unfold setSchema
  rw [read_bind]
  dsimp only
  cases hbase : w.1.base with
  | none => exact .inl rfl
  | some base =>
    dsimp only
    split
    · exact .inl rfl
    · next hholds =>
      rw [Bool.not_eq_true', Bool.not_eq_false] at hholds
      split
      · next hsame => exact ⟨base, hbase, .inl ⟨hsame.1, hsame.2, rfl⟩⟩
      · have hswitch := openAt_opened lib patience hholds (w := w) rfl
        refine Ensures.andThen (hswitch.attempted.mono (fun _ _ h => h) (fun _ _ h => h) ?_) ?_
        · exact fun stop w' h => .inr (.inl h.2)
        · rintro (e | _) w' hw'
          · have hback := openAt_opened lib patience (hc.holds hbase) (hw' e rfl)
            refine Ensures.andThen (hback.attempted.mono (fun _ _ h => h) (fun _ _ h => h) ?_) ?_
            · exact fun stop w'' h => .inr (.inl h.2)
            · rintro (e' | _) w'' hw''
              · exact .inr (.inl fun _ _ => hw'' e' rfl)
              · exact .inr (.inr ⟨base, hbase, hw''⟩)
          · exact ⟨base, hbase, .inr hw'⟩

def Act.opens : Act → Bool
  | .openBase _ | .connect _ | .setSchema _ => true
  | _ => false

/-- What opens nothing leaves the client set to what it was, with its handle or without it. -/
theorem Act.stands {act : Act} (hact : act.opens = false) (patience : Nat) :
    Leads Aloof (Stands c) (act.play lib patience)
      fun w => Stands c w ∨ Stands { c with db := none } w := by
  have hkeeps : ∀ {β : Type} {m : Move lam β}, Keeps Aloof (Stands c) m →
      Leads Aloof (Stands c) m fun w => Stands c w ∨ Stands { c with db := none } w :=
    fun h => h.mono (fun _ h => h) fun _ h => .inl h
  cases act with
  | openBase | connect | setSchema => cases hact
  | disconnect => exact stands_letGo.mono (fun _ h => h) fun _ h => .inr h
  | execute sql params => exact hkeeps (stands_execute sql params)
  | fetchRow => exact hkeeps (stands_fetchRow.bind fun _ => leads_pure () fun _ h => h)
  | nextResult => exact hkeeps (stands_nextResult.bind fun _ => leads_pure () fun _ h => h)
  | ping =>
    exact hkeeps ((stands_execute "SELECT 1" []).bind fun _ => stands_readOut patience)
  | interrupt key =>
    refine hkeeps (leads_modify fun w hw => ?_)
    have haloof : Aloof w (Client.interrupt lib key w) := interrupted_aloof (.single ⟨key, rfl⟩)
    exact (congrArg standing haloof).trans hw

def Returned (x : Except Stop Unit) : Prop := ∀ stop, x = .error stop → ∃ e, stop = .error e

/-- The client comes from one state to the other by operations that come back. Interrupters may be
called while one waits. -/
inductive Reaches (lib : Library lam) (patience : Nat) (w₀ : Client × lam) :
    Client × lam → Prop where
  | refl : Reaches lib patience w₀ w₀
  | act {w w' : Client × lam} (h : Reaches lib patience w₀ w) (act : Act) {x : Except Stop Unit}
      (hact : (act.play lib patience w).Plays (Interrupted lib) x w') (hx : Returned x) :
      Reaches lib patience w₀ w'

section

variable {patience : Nat} {w w' : Client × lam}

theorem Stands.rooted (hc : Rooted c) (h : Stands c w) : Rooted w.1 := by
  apply Rooted.of_standing
  rw [h]
  exact hc

theorem Rooted.act (hw : Rooted w.1) (patience : Nat) (act : Act) :
    (act.play lib patience w).Ensures Aloof (fun _ w' => Rooted w'.1)
      fun stop w' => ∀ e, stop = .error e → Rooted w'.1 := by
  have hstands : ∀ {w' : Client × lam}, Stands w.1.standing w' → Rooted w'.1 :=
    fun h => h.rooted hw.standing
  have hfallen : ∀ {stop : Stop} {w' : Client × lam}, Fallen w.1.standing stop w' →
      ∀ e, stop = .error e → Rooted w'.1 := fun h e he => (h e he).rooted hw.standing.closed
  cases hopens : act.opens with
  | false =>
    have hboth : ∀ w' : Client × lam, Stands w.1.standing w' ∨
        Stands { w.1.standing with db := none } w' → Rooted w'.1 :=
      fun w' h => h.elim hstands fun h => h.rooted hw.standing.closed
    exact (Act.stands hopens patience w rfl).mono (fun _ _ h => h) (fun _ => hboth)
      fun _ w' h _ _ => hboth w' h
  | true =>
    -- an act that opens ends with an open handle, or with what stood before, closed or not
    cases act with
    | openBase base =>
      exact (openAt_opened lib patience (holds_name base) rfl).mono (fun _ _ h => h)
        (fun _ _ h => h.rooted) fun _ _ h => hfallen h
    | connect o =>
      refine (connect_opened patience o rfl).mono (fun _ _ h => h) ?_ ?_
      · rintro _ w' ⟨base, -, h⟩
        exact h.rooted
      · rintro stop w' (h | h)
        · exact fun _ _ => hstands h
        · exact hfallen h
    | setSchema schema =>
      refine (setSchema_opened patience schema hw.standing rfl).mono (fun _ _ h => h) ?_ ?_
      · rintro _ w' ⟨base, -, ⟨-, -, h⟩ | h⟩
        · exact hstands h
        · exact h.rooted
      · rintro stop w' (h | h | ⟨base, -, h⟩)
        · exact fun _ _ => hstands h
        · exact hfallen h
        · exact fun _ _ => h.rooted
    | _ => cases hopens

theorem Reaches.rooted {w₀ : Client × lam} (h₀ : Rooted w₀.1) (h : Reaches lib patience w₀ w) :
    Rooted w.1 := by
  induction h with
  | refl => exact h₀
  | @act _ _ _ act x hact hx ih =>
    have hends := of_interrupted (ih.act patience act) hact
    cases x with
    | ok => exact hends
    | error stop =>
      obtain ⟨e, he⟩ := hx stop rfl
      exact hends e he

theorem connectSchema_of_holds {schema : String} (hschema : c.schema = some schema) {base : Layout}
    (hholds : base.holds schema = true) : c.connectSchema base = schema := by
  simp [connectSchema, hschema, hholds]

theorem connectSchema_of_not_holds {base : Layout}
    (h : ¬∃ schema, c.schema = some schema ∧ base.holds schema = true) :
    c.connectSchema base = base.name := by
  unfold connectSchema
  cases hschema : c.schema with
  | none => rfl
  | some schema =>
    have hholds : base.holds schema ≠ true := fun hholds => h ⟨schema, hschema, hholds⟩
    simp [hholds]

/-- In every state that operations lead to, the schema is one of the layout, and what is open is the
layout with that schema as its main database. Connecting sets the layout and keeps the schema if the
layout has one of that name, switching sets the schema, and nothing else sets either. -/
theorem reached_rooted {key : Nat} {l : lam} (h : Reaches lib patience ({ key }, l) w) :
    Rooted w.1 ∧
      (∀ o w', ((backend lib patience).connect o w).Plays (Interrupted lib) (.ok ()) w' →
        ∃ base, Layout.ofOptions o = .ok base ∧ w'.1.base = some base ∧
          (∀ schema, w.1.schema = some schema → (∃ d ∈ base.databases, d.name = schema) →
            w'.1.schema = some schema) ∧
          ((¬∃ schema, w.1.schema = some schema ∧ ∃ d ∈ base.databases, d.name = schema) →
            w'.1.schema = some base.name)) ∧
      (∀ schema w', ((backend lib patience).setCurrentSchema schema w).Plays (Interrupted lib)
          (.ok ()) w' →
        w'.1.schema = some schema ∧ w'.1.base = w.1.base ∧
          (lib.Forthcoming → w'.1.isConnected = true)) ∧
      ∀ (act : Act) x w', act.opens = false →
        (act.play lib patience w).Plays (Interrupted lib) x w' →
        w'.1.base = w.1.base ∧ w'.1.schema = w.1.schema := by
  have hfresh : Rooted ({ key } : Client) := ⟨by simp, by simp, by simp [isConnected]⟩
  have hrooted := h.rooted hfresh
  refine ⟨hrooted, ?_, ?_, ?_⟩
  · intro o w' hplays
    obtain ⟨base, hbase, l, db, -, hstands, -⟩ :=
      of_interrupted (connect_opened patience o rfl) hplays
    have hschema : w'.1.schema = some (w.1.connectSchema base) := hstands.schema_eq
    refine ⟨base, hbase, hstands.base_eq, ?_, ?_⟩
    · intro schema hbefore hd
      rw [hschema, connectSchema_of_holds hbefore (Layout.holds_iff.mpr hd)]
    · intro hnone
      simp only [← Layout.holds_iff] at hnone
      rw [hschema, connectSchema_of_not_holds hnone]
  · -- the schema may be current already, and then nothing is opened
    intro schema w' hplays
    obtain ⟨base, hbase, ⟨hsame, hopen, hstands⟩ | ⟨l, db, -, hstands, hdb⟩⟩ :=
      of_interrupted (setSchema_opened patience schema hrooted.standing rfl) hplays
    · refine ⟨hstands.schema_eq.trans hsame, hstands.base_eq, fun _ => ?_⟩
      rw [isConnected, hstands.db_eq]
      exact hopen
    · refine ⟨hstands.schema_eq, hstands.base_eq.trans hbase.symm, ?_⟩
      rw [isConnected, hstands.db_eq]
      exact hdb
  · intro act x w' hact hplays
    have hset : ∀ w' : Client × lam, Stands w.1.standing w' ∨
        Stands { w.1.standing with db := none } w' →
        w'.1.base = w.1.base ∧ w'.1.schema = w.1.schema := by
      rintro w' (h | h)
      · exact ⟨h.base_eq, h.schema_eq⟩
      · exact ⟨h.base_eq, h.schema_eq⟩
    have hends := of_interrupted (Act.stands hact patience w rfl) hplays
    cases x with
    | ok => exact hset w' hends
    | error stop => exact hset w' hends

end

namespace Switched

open Rehearsal

/-- The engine, but a handle comes with every opening. -/
def library : Library World :=
  { Engine.library with
    openFile := fun path flags => do
      let r ← Engine.openFile path flags
      return (r.1, some (r.2.getD 0)) }

theorem library_forthcoming : library.Forthcoming := fun _ _ _ _ => rfl

def run (lib : Library lam) (patience : Nat) : List Act → Client × lam → Option (Client × lam)
  | [], w => some w
  | act :: acts, w =>
    match act.play lib patience w with
    | .done (.ok ()) w' => run lib patience acts w'
    | .done (.error (.error _)) w' => run lib patience acts w'
    | _ => none

theorem reaches_of_run {acts : List Act} {patience : Nat} {w₀ w w' : Client × lam}
    (h₀ : Reaches lib patience w₀ w) (h : run lib patience acts w = some w') :
    Reaches lib patience w₀ w' := by
  induction acts generalizing w with
  | nil =>
    cases h
    exact h₀
  | cons act acts ih =>
    rw [run] at h
    split at h
    · next hplay => exact ih (h₀.act act (hplay ▸ Plays.done _ _) (by simp [Returned])) h
    · next hplay => exact ih (h₀.act act (hplay ▸ Plays.done _ _) (by simp [Returned])) h
    · cases h

/-- The third opening fails. -/
def world : World :=
  { engine := Engine.initial { openings := [{}, {}, { fault := { code := 14 } }] } }

def acts : List Act :=
  [.openBase { path := "a.db", name := "a", attachments := [⟨"b", "b.db"⟩, ⟨"c", "c.db"⟩] },
    .setSchema "b", .setSchema "c", .execute "SELECT 1" [], .disconnect]

def ended : Option (Client × World) := run library 5 acts ({}, world)

theorem reached_rooted_switched :
    ∃ w w', ended = some w ∧ w.1.schema = some "b" ∧ w.1.isConnected = false ∧ Rooted w.1 ∧
      (backend library 5).setCurrentSchema "c" w = .done (.ok ()) w' ∧
      w'.1.schema = some "c" ∧ w'.1.isConnected = true := by
  have hended : ended.map (fun w => (w.1.schema, w.1.isConnected,
      ((backend library 5).setCurrentSchema "c" w).wentWell)) = some (some "b", false, true) := by
    decide +kernel
  obtain ⟨w, hw, hafter⟩ := Option.map_eq_some_iff.mp hended
  simp only [Prod.mk.injEq] at hafter
  obtain ⟨⟨⟩, w', hswitched⟩ := exists_of_wentWell hafter.2.2
  obtain ⟨hrooted, -, hswitch, -⟩ := reached_rooted (reaches_of_run .refl hw)
  obtain ⟨hschema, -, hopen⟩ := hswitch "c" w' (hswitched ▸ Plays.done _ _)
  exact ⟨w, w', hw, hafter.1, hafter.2.1, hrooted, hswitched, hschema, hopen library_forthcoming⟩

end Switched
end Client
end DatabaseSession.Sqlite
