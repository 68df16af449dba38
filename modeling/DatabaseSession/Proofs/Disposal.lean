import Mathlib.Logic.Relation
import DatabaseSession.Proofs.Handles
import DatabaseSession.Rehearsal.Engine
import DatabaseSession.Sqlite.Client

namespace DatabaseSession.Sqlite

open Play Library

variable {lam α : Type}

namespace Client

section Openings

variable {lib : Library lam} {patience : Nat} {R : Client × lam → Client × lam → Prop}
  {I : Client × lam → Prop}

theorem keeps_connect_of (h : ∀ base schema, Keeps R I (openAt lib patience base schema))
    (o : Options) : Keeps R I (connect lib patience o) := by
  unfold connect
  cases Layout.ofOptions o with
  | error e => exact leads_fail e fun _ h => h
  | ok base => exact fun w hw => h base (w.1.connectSchema base) w hw

/-- What no opening breaks no switch breaks, whether it goes back or not. -/
theorem keeps_setSchema_of (h : ∀ base schema, Keeps R I (openAt lib patience base schema))
    (schema : String) : Keeps R I (setSchema lib patience schema) := by
  intro w hw
  unfold setSchema
  rw [read_bind]
  cases w.1.base with
  | none => exact hw
  | some base =>
    dsimp only
    split
    · exact hw
    · split
      · exact hw
      · refine (Keeps.bind (h base schema).attempt fun result => ?_) w hw
        cases result with
        | ok => exact leads_pure () fun _ h => h
        | error e => exact Keeps.bind (h base _).attempt fun _ => leads_fail e fun _ h => h

end Openings

variable (lib : Library lam)

/-- Interrupters aim at the client's handle, if at any. -/
def Aimed (c : Client) : Prop := ∀ db, c.target = some db → c.db = some db

/-- The client's handle and the statement of its cursor are what is in use. -/
structure Owns (w : Client × (List Use × lam)) : Prop where
  handle : ∀ k, w.1.cursor = some k → w.1.db = some k.db
  aimed : Aimed w.1
  held : Held ⟨w.1.db, w.1.cursor.bind Cursor.statement⟩ w.2

/-- Others let the client be, as long as its interrupters aim at its own handle. -/
def Undisturbed (w w' : Client × (List Use × lam)) : Prop :=
  w'.1 = w.1 ∧ (Aimed w.1 → ∀ st, Held ⟨w.1.db, st⟩ w.2 → Held ⟨w.1.db, st⟩ w'.2)

theorem dropCursor_done {w : Client × (List Use × lam)} (hw : Owns w) :
    ∃ l, dropCursor lib.logged w = .done (.ok ()) ({ w.1 with cursor := none }, l) ∧
      Held ⟨w.1.db, none⟩ l := by
  have hheld := hw.held
  unfold dropCursor
  rw [read_bind]
  dsimp only
  cases hst : w.1.cursor.bind Cursor.statement with
  | none =>
    rw [hst] at hheld
    exact ⟨w.2, rfl, hheld⟩
  | some statement =>
    rw [hst] at hheld
    exact ⟨_, rfl, hheld.append (by simp [Custody.next])⟩

def closeIfOpen (lib : Library lam) : Option Nat → lam → lam
  | none, l => l
  | some db, l => (lib.close db l).2

/-- The client lets go of its statement first and of its handle last; nobody aims at it then. -/
theorem letGo_of_dropCursor {lib : Library lam} {w : Client × lam} {l : lam}
    (hdrop : dropCursor lib w = .done (.ok ()) ({ w.1 with cursor := none }, l)) :
    letGo lib w = .done (.ok ())
      ({ w.1 with db := none, target := none, cursor := none }, closeIfOpen lib w.1.db l) := by
  unfold letGo
  rw [bind_of_done hdrop, update_bind, read_bind]
  dsimp only
  cases hdb : w.1.db with
  | none => rfl
  | some db => rfl

theorem closeIfOpen_held {db : Option Nat} {l : List Use × lam} (hl : Held ⟨db, none⟩ l) :
    Held {} (closeIfOpen lib.logged db l) := by
  cases db with
  | none => exact hl
  | some db => exact hl.append (by simp [Custody.next])

structure Bare (w : Client × (List Use × lam)) : Prop where
  cursor : w.1.cursor = none
  handle : w.1.db = none
  target : w.1.target = none
  held : Held {} w.2

theorem Bare.owns {w : Client × (List Use × lam)} (h : Bare w) : Owns w where
  handle k hk := by simp [h.cursor] at hk
  aimed db hdb := by simp [h.target] at hdb
  held := by simpa [h.cursor, h.handle] using h.held

theorem letGo_done {w : Client × (List Use × lam)} (hw : Owns w) :
    ∃ w', letGo lib.logged w = .done (.ok ()) w' ∧ Bare w' := by
  obtain ⟨l, hdrop, hheld⟩ := dropCursor_done lib hw
  exact ⟨_, letGo_of_dropCursor hdrop, rfl, rfl, rfl, closeIfOpen_held lib hheld⟩

theorem keeps_dropCursor : Keeps Undisturbed Owns (dropCursor lib.logged) := by
  intro w hw
  obtain ⟨l, hdrop, hheld⟩ := dropCursor_done lib hw
  rw [hdrop]
  exact ⟨fun k hk => by simp at hk, hw.aimed, hheld⟩

theorem leads_letGo : Leads Undisturbed Owns (letGo lib.logged) Bare := by
  intro w hw
  obtain ⟨w', hgone, hbare⟩ := letGo_done lib hw
  rw [hgone]
  exact hbare

theorem openFailure_held (code : Int) {db : Option Nat} {l : List Use × lam}
    (hl : Held ⟨db, none⟩ l) : Held {} (openFailure lib.logged code db l).2 := by
  cases db with
  | none => exact hl
  | some db =>
    have hmessage : Held ⟨some db, none⟩ (lib.logged.errorMessage db l).2 :=
      hl.append (by simp [Custody.next, Use.handle?, Use.statement?])
    exact hmessage.append (by simp [Custody.next])

theorem leads_onCursor {m : Cursor.Move (List Use × lam) α}
    (hm : ∀ db, Keeps (Cursor.Undisturbed db) (Cursor.Runs db) m) :
    Leads Undisturbed (fun w => Owns w ∧ w.1.cursor.isSome = true) (onCursor m) Owns := by
  rintro ⟨c, l⟩ ⟨⟨hhandle, haimed, hheld⟩, hsome⟩
  obtain ⟨k, hk⟩ := Option.isSome_iff_exists.mp hsome
  have hdb := hhandle k hk
  dsimp only at hk hdb hheld
  rw [hk, hdb] at hheld
  have hcursor := hm k.db (k, l) ⟨k.statement, rfl, rfl, hheld⟩
  have hput : ∀ (k' : Cursor × (List Use × lam)) (w : Client × (List Use × lam)),
      w.1.db = some k.db ∧ Aimed w.1 → Cursor.Runs k.db k' →
      Owns ({ w.1 with cursor := some k'.1, stats := k'.1.stats }, k'.2) := by
    rintro k' w ⟨hw, hw'⟩ ⟨st, hdb', hst', hheld'⟩
    refine ⟨?_, hw', ?_⟩
    · intro j hj
      cases hj
      rw [hdb']
      exact hw
    · dsimp only
      rw [hw]
      simpa [hst'] using hheld'
  have hlook : c.cursor.getD default = k := by simp [hk]
  change Turn.Ensures _ _ _ (Turn.focus _ _ (m (c.cursor.getD default, l)) (c, l))
  rw [hlook]
  refine Turn.Ensures.focus (F := fun w => w.1.db = some k.db ∧ Aimed w.1) ?_ ?_ ?_ hcursor
    ⟨hdb, haimed⟩
  · rintro k' w ⟨c', l'⟩ ⟨hw, hw'⟩ ⟨rfl, hl'⟩
    have hlater := hl' hw'
    dsimp only at hlater
    rw [hw] at hlater
    exact ⟨⟨hw, hw'⟩, rfl, hlater⟩
  · exact fun _ k' w hw hk' => hput k' w hw hk'
  · exact fun _ k' w hw hk' => hput k' w hw hk'

theorem keeps_ifCursor {m : Cursor.Move (List Use × lam) α} (a : α)
    (hm : ∀ db, Keeps (Cursor.Undisturbed db) (Cursor.Runs db) m) :
    Keeps Undisturbed Owns
      (Move.read >>= fun c => if c.cursor.isNone = true then pure a else onCursor m) := by
  intro w hw
  rw [read_bind]
  split
  · exact hw
  · next hsome =>
    refine leads_onCursor hm w ⟨hw, ?_⟩
    rwa [Bool.not_eq_true, Option.isNone_eq_false_iff] at hsome

section

variable (hlib : lib.Careful)

include hlib

theorem keeps_fetchRow : Keeps Undisturbed Owns (fetchRow lib.logged) :=
  keeps_ifCursor none fun _ => Cursor.keeps_fetch hlib

theorem keeps_nextResult : Keeps Undisturbed Owns (nextResult lib.logged) :=
  keeps_ifCursor false fun _ => Cursor.keeps_advance hlib

theorem keeps_execute (sql : String) (params : List Value) :
    Keeps Undisturbed Owns (execute lib.logged sql params) := by
  intro w hw
  unfold execute
  rw [read_bind]
  cases hdb : w.1.db with
  | none => exact hw
  | some db =>
    obtain ⟨l, hdrop, hheld⟩ := dropCursor_done lib hw
    rw [hdb] at hheld
    dsimp only
    rw [bind_of_done hdrop]
    split
    · exact ⟨fun k hk => by simp at hk, hw.aimed, by simpa [hdb] using hheld⟩
    · have hadvance := leads_onCursor fun _ => Cursor.keeps_advance hlib
      refine (Leads.bind hadvance (fun _ => leads_pure () fun _ h => h) fun _ h => h) _ ⟨?_, rfl⟩
      refine ⟨?_, hw.aimed, ?_⟩
      · intro k hk
        cases hk
        exact hdb
      · dsimp only
        rw [hdb]
        exact hheld

theorem keeps_runOut (patience : Nat) (sql : String) :
    Keeps Undisturbed Owns (runOut lib.logged patience sql) := by
  refine (keeps_execute lib hlib sql []).bind fun _ => ?_
  refine (Backend.keeps_readOut (keeps_fetchRow lib hlib) (keeps_nextResult lib hlib) patience).bind
    fun _ => ?_
  exact keeps_dropCursor lib

/-- The handle of a file that was opened is the client's from then on, and the client's alone if it
cannot be set up. -/
theorem leads_setUpHandle (patience : Nat) (layout : Layout) (db : Option Nat) :
    Leads Undisturbed (fun w => w.1.cursor = none ∧ Held ⟨db, none⟩ w.2)
      (setUpHandle lib.logged patience layout db) Owns := by
  have hsetUp := (keeps_forM (keeps_runOut lib hlib patience) layout.setupStatements).attempt
  rintro ⟨c, l⟩ ⟨hcursor, hheld⟩
  have howns : Owns ({ c with db, target := db }, l) := by
    dsimp only at hcursor
    exact ⟨fun k hk => by simp [hcursor] at hk, fun _ h => h, by simpa [hcursor] using hheld⟩
  unfold setUpHandle
  rw [update_bind]
  refine (Keeps.bind hsetUp fun result => ?_) _ howns
  cases result with
  | ok => exact leads_modify fun w hw => ⟨hw.handle, hw.aimed, hw.held⟩
  | error e =>
    exact (leads_letGo lib).bind (fun _ => leads_fail e fun _ h => h.owns) fun _ h => h.owns

theorem keeps_openLayout (patience : Nat) (layout : Layout) :
    Keeps Undisturbed Owns (openLayout lib.logged patience layout) := by
  refine (leads_letGo lib).bind (fun _ => ?_) fun _ h => h.owns
  dsimp only
  split
  · exact leads_fail _ fun _ h => h.owns
  · rintro ⟨c, l⟩ ⟨hcursor, hdb, htarget, hheld⟩
    obtain ⟨code, db, l', hopen, hafter⟩ := openFile_held lib hheld layout.path layout.flags.toWord
    rw [call_bind]
    dsimp only
    rw [hopen]
    dsimp only
    split
    · rw [call_bind]
      exact Bare.owns ⟨hcursor, hdb, htarget, openFailure_held lib code hafter⟩
    · split
      · rw [call_bind]
        refine leads_setUpHandle lib hlib patience layout db _ ⟨hcursor, hafter.append ?_⟩
        simp [Custody.next, Use.handle?, Use.statement?]
      · exact leads_setUpHandle lib hlib patience layout db _ ⟨hcursor, hafter⟩

theorem keeps_openAt (patience : Nat) (base : Layout) (schema : String) :
    Keeps Undisturbed Owns (openAt lib.logged patience base schema) := by
  unfold openAt
  cases base.withMain schema with
  | none => exact leads_fail _ fun _ h => h
  | some layout =>
    refine (keeps_openLayout lib hlib patience layout).bind fun _ => ?_
    exact leads_modify fun w hw => ⟨hw.handle, hw.aimed, hw.held⟩

end

/-- What is done with a client in its life. -/
inductive Act where
  | openBase (base : Layout)
  | connect (options : Options)
  | disconnect
  | execute (sql : String) (params : List Value)
  | fetchRow
  | nextResult
  | ping
  | setSchema (schema : String)
  /-- An interrupter, of this client or an earlier one, is called. -/
  | interrupt (key : Nat)

def Act.play (lib : Library lam) (patience : Nat) : Act → Move lam Unit
  | .openBase base => openAt lib patience base base.name
  | .connect options => (backend lib patience).connect options
  | .disconnect => (backend lib patience).disconnect
  | .execute sql params => (backend lib patience).execute sql params
  | .fetchRow => do let _ ← (backend lib patience).fetchRow
  | .nextResult => do let _ ← (backend lib patience).nextResult
  | .ping => (backend lib patience).ping
  | .setSchema schema => (backend lib patience).setCurrentSchema schema
  | .interrupt key => Play.modify (Client.interrupt lib key)

def Interrupted (lib : Library lam) : Client × lam → Client × lam → Prop :=
  Relation.ReflTransGen fun w w' => ∃ key, w' = interrupt lib key w

/-- The client comes from one state to the other by its operations, however each of them ends.
Interrupters may be called while one waits. -/
inductive Lives (lib : Library lam) (patience : Nat) (w₀ : Client × lam) : Client × lam → Prop where
  | refl : Lives lib patience w₀ w₀
  | act {w w' : Client × lam} (h : Lives lib patience w₀ w) (act : Act) {x : Except Stop Unit}
      (hact : (act.play lib patience w).Plays (Interrupted lib) x w') : Lives lib patience w₀ w'

theorem Undisturbed.trans {a b c : Client × (List Use × lam)} (h : Undisturbed a b)
    (h' : Undisturbed b c) : Undisturbed a c := by
  refine ⟨h'.1.trans h.1, fun haimed st hheld => ?_⟩
  have hlater := h'.2
  rw [h.1] at hlater
  exact hlater haimed st (h.2 haimed st hheld)

theorem Undisturbed.owns {w w' : Client × (List Use × lam)} (h : Undisturbed w w') (hw : Owns w) :
    Owns w' where
  handle := by
    rw [h.1]
    exact hw.handle
  aimed := by
    rw [h.1]
    exact hw.aimed
  held := by
    rw [h.1]
    exact h.2 hw.aimed _ hw.held

theorem interrupt_undisturbed (key : Nat) (w : Client × (List Use × lam)) :
    Undisturbed w (interrupt lib.logged key w) := by
  unfold interrupt
  cases htarget : w.1.target with
  | none => exact ⟨rfl, fun _ _ h => h⟩
  | some db =>
    dsimp only
    split
    · refine ⟨rfl, fun haimed st hheld => hheld.append ?_⟩
      simp [Custody.next, Use.handle?, Use.statement?, haimed db htarget]
    · exact ⟨rfl, fun _ _ h => h⟩

theorem interrupted_undisturbed {w w' : Client × (List Use × lam)}
    (h : Interrupted lib.logged w w') : Undisturbed w w' := by
  induction h with
  | refl => exact ⟨rfl, fun _ _ h => h⟩
  | tail _ hstep ih =>
    obtain ⟨key, rfl⟩ := hstep
    exact ih.trans (interrupt_undisturbed lib key _)

/-- An interrupter does nothing where there is nothing to aim at. -/
theorem Bare.interrupted {lib : Library lam} {w w' : Client × (List Use × lam)} (hw : Bare w)
    (h : Interrupted lib.logged w w') : w' = w := by
  induction h with
  | refl => rfl
  | tail _ hstep ih =>
    obtain ⟨key, rfl⟩ := hstep
    rw [ih]
    unfold interrupt
    rw [hw.target]

/-- Every operation leaves the client with what is in use, however it ends. -/
theorem keeps_act (hlib : lib.Careful) (patience : Nat) (act : Act) :
    Keeps Undisturbed Owns (act.play lib.logged patience) := by
  have hexecute := keeps_execute lib hlib
  have hfetch := keeps_fetchRow lib hlib
  have hnext := keeps_nextResult lib hlib
  cases act with
  | openBase base => exact keeps_openAt lib hlib patience base base.name
  | connect options => exact keeps_connect_of (keeps_openAt lib hlib patience) options
  | disconnect => exact (leads_letGo lib).mono (fun _ h => h) fun _ h => h.owns
  | execute sql params => exact hexecute sql params
  | fetchRow => exact hfetch.bind fun _ => leads_pure () fun _ h => h
  | nextResult => exact hnext.bind fun _ => leads_pure () fun _ h => h
  | ping => exact (hexecute "SELECT 1" []).bind fun _ => Backend.keeps_readOut hfetch hnext patience
  | setSchema schema => exact keeps_setSchema_of (keeps_openAt lib hlib patience) schema
  | interrupt key => exact leads_modify fun w hw => (interrupt_undisturbed lib key w).owns hw

theorem Lives.owns {lib : Library lam} (hlib : lib.Careful)
    {patience : Nat} {w₀ w : Client × (List Use × lam)} (h₀ : Owns w₀)
    (h : Lives lib.logged patience w₀ w) : Owns w := by
  induction h with
  | refl => exact h₀
  | act _ act hact ih =>
    have hkeeps := keeps_act lib hlib patience act _ ih
    exact (hkeeps.mono (fun _ _ => interrupted_undisturbed lib) (fun _ _ h => h)
      fun _ _ h => h).of_plays hact

/-- A client that is dropped after any life has used the library as it should: each handle that it
got is closed once, each statement is finalized once and before that, there is one of each at most
at a time, and no call is made with one that is gone. Whoever interrupts it later does nothing. -/
theorem orderly_of_disposed {lib : Library lam} (hlib : lib.Careful)
    {patience key : Nat} {l : lam} {w : Client × (List Use × lam)}
    (h : Lives lib.logged patience ({ key }, ([], l)) w) :
    ∃ w', (backend lib.logged patience).dispose w = .done (.ok ()) w' ∧ Orderly w'.2.1 ∧
      ∀ w'', Interrupted lib.logged w' w'' → w'' = w' := by
  have hfresh : Owns (({ key }, ([], l)) : Client × (List Use × lam)) :=
    Bare.owns ⟨rfl, rfl, rfl, rfl⟩
  obtain ⟨w', hdone, hbare⟩ := letGo_done lib (h.owns hlib hfresh)
  exact ⟨w', hdone, Custody.orderly_of_after hbare.held, fun _ hlater => hbare.interrupted hlater⟩

namespace Reopened

open Rehearsal

def run (lib : Library lam) (patience : Nat) : List Act → Client × lam → Option (Client × lam)
  | [], w => some w
  | act :: acts, w =>
    match act.play lib patience w with
    | .done _ w' => run lib patience acts w'
    | .ask _ _ _ _ => none

theorem lives_of_run {lib : Library lam} {patience : Nat} {acts : List Act}
    {w₀ w w' : Client × lam} (h₀ : Lives lib patience w₀ w)
    (h : run lib patience acts w = some w') :
    Lives lib patience w₀ w' := by
  induction acts generalizing w with
  | nil =>
    cases h
    exact h₀
  | cons act acts ih =>
    rw [run] at h
    split at h
    · next hplay => exact ih (h₀.act act (hplay ▸ Turn.Plays.done _ _)) h
    · cases h

/-- The second opening fails, but leaves a handle. -/
def world : World :=
  { engine := Engine.initial { openings := [{}, { fault := { code := 14 } }] } }

def acts : List Act :=
  [.openBase { path := "a.db", name := "a", attachments := [⟨"b", "b.db"⟩] },
    .execute "SELECT 1;SELECT 2" [], .fetchRow, .setSchema "b", .interrupt 0,
    .execute "SELECT 3" []]

def ended : Option (Client × (List Use × World)) :=
  run Engine.library.logged 5 acts ({}, ([], world))

theorem engine_careful : Engine.library.Careful := by
  intro db text w
  change (Engine.prepare db text w).1.code ≠ 0 → (Engine.prepare db text w).1.statement = none
  have hbind : ∀ {α β : Type} (x : Engine.Act α) (f : α → Engine.Act β) (w : World),
      (x >>= f) w = f (x w).1 (x w).2 := fun _ _ _ => rfl
  unfold Engine.prepare
  rw [hbind]
  split
  · exact fun _ => rfl
  · rw [hbind]
    dsimp only
    rw [hbind]
    split
    · exact fun _ => rfl
    · rw [hbind]
      split
      · exact fun _ => rfl
      · exact fun h => absurd rfl h

theorem orderly_of_disposed_reopened :
    ∃ w w', ended = some w ∧ w.2.1.filterMap Use.opened? = [1, 5, 6] ∧
      (backend Engine.library.logged 5).dispose w = .done (.ok ()) w' ∧ Orderly w'.2.1 := by
  have hended : ended.map (fun w => w.2.1.filterMap Use.opened?) = some [1, 5, 6] := by
    decide +kernel
  obtain ⟨w, hw, hopened⟩ := Option.map_eq_some_iff.mp hended
  obtain ⟨w', hdone, horderly, -⟩ := orderly_of_disposed engine_careful (lives_of_run .refl hw)
  exact ⟨w, w', hw, hopened, hdone, horderly⟩

end Reopened
end Client
end DatabaseSession.Sqlite
