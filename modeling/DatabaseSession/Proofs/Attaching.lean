import DatabaseSession.Proofs.Schemas
import Mathlib.Data.List.Perm.Basic

namespace DatabaseSession.Sqlite

open Play Turn Library

variable {lam α : Type}

namespace Library

namespace Use

/-- The call opens and closes nothing, and prepares at most a text shorter than that. -/
def Minor (n : Nat) : Use → Prop
  | .openFile .. | .close _ => False
  | .prepare _ text _ => text.length < n
  | _ => True

theorem Minor.mono {m n : Nat} (hle : m ≤ n) {u : Use} (h : u.Minor m) : u.Minor n := by
  cases u with
  | prepare => exact Nat.lt_of_lt_of_le h hle
  | _ => exact h

theorem Within.minor {db : Nat} {st : Option Nat} {u : Use} (h : u.Within db st) : u.Minor 0 := by
  cases u with
  | openFile | close | prepare | finalize => cases h.plain
  | _ => trivial

theorem minor_of_isFinalize {u : Use} (h : u.isFinalize = true) : u.Minor 0 := by
  cases u with
  | finalize => trivial
  | _ => cases h

end Use

/-- These calls run a text: it is prepared, the statement made of it is stepped, and besides that
only parts of the text are prepared. -/
def Performs (db : Nat) (text : List UInt8) (calls : List Use) : Prop :=
  ∃ before r after, calls = before ++ .prepare db text r :: after ∧ r.code = okCode ∧
    (∀ st, r.statement = some st → .step st ∈ after) ∧
    (∀ u ∈ before, u.Minor 0) ∧ ∀ u ∈ after, u.Minor text.length

/-- Others make minor calls only. -/
def Nearby (l l' : List Use × lam) : Prop := ∃ calls, l'.1 = l.1 ++ calls ∧ ∀ u ∈ calls, u.Minor 0

theorem Nearby.trans {a b c : List Use × lam} (h : Nearby a b) (h' : Nearby b c) : Nearby a c := by
  obtain ⟨calls, hb, hcalls⟩ := h
  obtain ⟨calls', hc, hcalls'⟩ := h'
  refine ⟨calls ++ calls', by simp [hc, hb], fun u hu => ?_⟩
  rcases List.mem_append.mp hu with hu | hu
  · exact hcalls u hu
  · exact hcalls' u hu

/-- The text has been prepared since that log, and this statement was stepped if there is one to
step. -/
def Begun (db : Nat) (text : List UInt8) (log₀ : List Use) (r : Prepared) (due : Option Nat)
    (log : List Use) : Prop :=
  ∃ before after, log = log₀ ++ (before ++ .prepare db text r :: after) ∧
    (∀ st, due = some st → .step st ∈ after) ∧
    (∀ u ∈ before, u.Minor 0) ∧ ∀ u ∈ after, u.Minor text.length

variable {db : Nat} {text : List UInt8} {log₀ log : List Use} {r : Prepared} {due : Option Nat}

theorem Begun.append (h : Begun db text log₀ r due log) {calls : List Use}
    (hcalls : ∀ u ∈ calls, u.Minor text.length) : Begun db text log₀ r due (log ++ calls) := by
  obtain ⟨before, after, rfl, hdue, hbefore, hafter⟩ := h
  refine ⟨before, after ++ calls, by simp, ?_, hbefore, ?_⟩
  · exact fun st hst => List.mem_append_left _ (hdue st hst)
  · intro u hu
    rcases List.mem_append.mp hu with hu | hu
    · exact hafter u hu
    · exact hcalls u hu

theorem Begun.concat (h : Begun db text log₀ r due log) {u : Use} (hu : u.Minor text.length) :
    Begun db text log₀ r due (log ++ [u]) :=
  h.append (by simpa using hu)

def begun (lib : Library lam) (db : Nat) (text : List UInt8) (log₀ : List Use) (r : Prepared)
    (due : Option Nat) : Watch lib db Nearby where
  Holds t o _ log := t = text ∧ 0 < o ∧ o ≤ text.length ∧ Begun db text log₀ r due log
  others := by
    rintro t o st l l' ⟨ht, ho, hle, h⟩ ⟨calls, hl', hcalls⟩
    rw [hl']
    exact ⟨ht, ho, hle, h.append fun u hu => (hcalls u hu).mono (Nat.zero_le _)⟩
  call := by
    rintro t o st log u ⟨ht, ho, hle, h⟩ hu
    exact ⟨ht, ho, hle, h.concat (hu.minor.mono (Nat.zero_le _))⟩
  finalized := by
    rintro t o st log ⟨ht, ho, hle, h⟩
    exact ⟨ht, ho, hle, h.concat trivial⟩
  prepared := by
    rintro _ o r' x l ⟨rfl, ho, hle, h⟩ - -
    refine ⟨rfl, by omega, by omega, h.concat ?_⟩
    simp only [Use.Minor, List.length_drop]
    omega
  refused := by
    rintro _ o r' x l ⟨rfl, ho, hle, h⟩ - -
    refine ⟨rfl, by omega, by omega, h.concat ?_⟩
    simp only [Use.Minor, List.length_drop]
    omega

end Library

namespace Cursor

variable {lib : Library lam} {db : Nat} {text : List UInt8} {log₀ : List Use}

/-- A cursor on a text that was prepared well, and whose statement was stepped. -/
def Proceeds (lib : Library lam) (db : Nat) (text : List UInt8) (log₀ : List Use)
    (w : Cursor × (List Use × lam)) : Prop :=
  ∃ r : Prepared, r.code = okCode ∧ ∃ st, Watched (begun lib db text log₀ r r.statement) st w

theorem keeps_proceeds {m : Move (List Use × lam) α} (hm : ∀ (r : Prepared) due,
      Keeps (LetBe Nearby) (fun w => ∃ st, Watched (begun lib db text log₀ r due) st w) m) :
    Keeps (LetBe Nearby) (Proceeds lib db text log₀) m := by
  rintro w ⟨r, hcode, hw⟩
  exact (hm r r.statement w hw).mono (fun _ _ h => h) (fun _ _ h => ⟨r, hcode, h⟩)
    fun _ _ h => ⟨r, hcode, h⟩

theorem nextStatement_begins (n : Nat) {k : Cursor} (hdb : k.db = db) (hktext : k.text = text)
    (htext : text ≠ []) (hoffset : k.offset = 0) (hst : k.statement = none) {l : List Use × lam}
    {before : List Use} (hl : l.1 = log₀ ++ before) (hbefore : ∀ u ∈ before, u.Minor 0) :
    (nextStatement lib.logged (n + 1) (k, l)).Ensures (LetBe Nearby)
      (fun more w => ∃ r : Prepared, r.code = okCode ∧
        ∃ st, Watched (begun lib db text log₀ r none) st w ∧
          ∀ s, r.statement = some s → more = true ∧ st = some s) fun _ _ => True := by
  subst hdb hktext
  have hlength : 0 < k.text.length := List.length_pos_iff.mpr htext
  unfold nextStatement
  rw [read_bind]
  dsimp only
  rw [hoffset, if_neg (by omega), List.drop_zero, call_bind]
  cases hprep : lib.prepare k.db k.text l.2 with
  | mk r x =>
    have hcall : lib.logged.prepare k.db k.text l = (r, (l.1 ++ [.prepare k.db k.text r], x)) := by
      change noted _ _ l = _
      rw [noted, hprep]
    dsimp only
    rw [hcall]
    dsimp only
    split
    · exact trivial
    · next hok =>
      have hbegun : Begun k.db k.text log₀ r none (l.1 ++ [.prepare k.db k.text r]) :=
        ⟨before, [], by simp [hl], by simp, hbefore, by simp⟩
      rw [update_bind]
      dsimp only
      cases hs : r.statement with
      -- a text that begins with a piece without a statement is read on from there
      | none =>
        have hw := leads_nextStatement (W := begun lib k.db k.text log₀ r none) n
          ({ k with offset := min (k.offset + max (r.taken.getD k.text.length) 1) k.text.length },
            (l.1 ++ [.prepare k.db k.text r], x)) ⟨rfl, hst, rfl, ?_, ?_, hbegun⟩
        · refine hw.mono (fun _ _ h => h) ?_ fun _ _ _ => trivial
          rintro more w ⟨st, hw⟩
          exact ⟨r, not_not.mp hok, st, hw, by simp [hs]⟩
        · dsimp only
          omega
        · dsimp only
          omega
      | some statement =>
        refine ⟨r, not_not.mp hok, some statement, ⟨rfl, rfl, rfl, ?_, ?_, hbegun⟩, ?_⟩
        · dsimp only
          omega
        · dsimp only
          omega
        · simp [hs]

/-- A fresh cursor begins with the whole text, and steps the statement made of it. -/
theorem advance_proceeds {k : Cursor} (hdb : k.db = db) (hktext : k.text = text) (htext : text ≠ [])
    (hoffset : k.offset = 0) (hst : k.statement = none) {l : List Use × lam} {before : List Use}
    (hl : l.1 = log₀ ++ before) (hbefore : ∀ u ∈ before, u.Minor 0) :
    (advance lib.logged (k, l)).Ensures (LetBe Nearby) (fun _ => Proceeds lib db text log₀)
      fun _ _ => True := by
  have hend : endStatement lib.logged (k, l) = .done (.ok ())
      ({ k with statement := none, peeked := none, exhausted := true, columns := [] }, l) := by
    unfold endStatement
    rw [read_bind]
    dsimp only
    rw [hst]
    rfl
  obtain ⟨n, hn⟩ : ∃ n, text.length = n + 1 := Nat.exists_eq_succ_of_ne_zero (by simpa using htext)
  unfold advance
  rw [bind_of_done hend, read_bind]
  dsimp only
  rw [hktext, hoffset, Nat.sub_zero, hn]
  refine Ensures.andThen
    (nextStatement_begins n (by exact hdb) rfl htext rfl rfl hl hbefore) ?_
  rintro more w ⟨r, hcode, st, hw, hstatement⟩
  cases hs : r.statement with
  | none =>
    -- Nothing was made of the text, so there is nothing to step.
    have hreads : ∀ w : Cursor × (List Use × lam),
        (∃ st, Watched (begun lib db text log₀ r none) st w) → Proceeds lib db text log₀ w :=
      fun w h => ⟨r, hcode, by rwa [hs]⟩
    cases more with
    | false => exact hreads w ⟨st, hw⟩
    | true =>
      exact (watched_found w ⟨st, hw⟩).mono (fun _ _ h => h) (fun _ w h => hreads w h)
        fun _ _ _ => trivial
  | some s =>
    obtain ⟨rfl, rfl⟩ := hstatement s hs
    have hstep : ∀ {t o log}, (begun lib db text log₀ r none).Holds t o (some s) log →
        (begun lib db text log₀ r (some s)).Holds t o (some s) (log ++ [.step s]) := by
      rintro t o log ⟨ht, ho, hle, before, after, rfl, -, hbefore, hafter⟩
      refine ⟨ht, ho, hle, before, after ++ [.step s], by simp, by simp, hbefore, ?_⟩
      intro u hu
      rcases List.mem_append.mp hu with hu | hu
      · exact hafter u hu
      · rw [List.mem_singleton.mp hu]
        exact trivial
    have hstart := start_watched hstep hw
    dsimp only
    rw [if_pos rfl, read_bind, hw.statement]
    refine Ensures.andThen (hstart.mono (fun _ _ h => h) (fun _ _ h => h) fun _ _ _ => trivial) ?_
    exact fun _ w hw => ⟨r, hcode, some s, by rwa [hs]⟩

end Cursor

namespace Client

variable {lib : Library lam} {db : Nat} {text : List UInt8} {log₀ : List Use}

/-- Others let the client be, and make minor calls only. -/
def Passed (w w' : Client × (List Use × lam)) : Prop := w'.1 = w.1 ∧ Nearby w.2 w'.2

theorem interrupted_passed {w w' : Client × (List Use × lam)} (h : Interrupted lib.logged w w') :
    Passed w w' := by
  induction h with
  | refl => exact ⟨rfl, [], by simp, by simp⟩
  | tail _ hstep ih =>
    obtain ⟨key, rfl⟩ := hstep
    refine ⟨(interrupted_aloof (.single ⟨key, rfl⟩)).trans ih.1, Nearby.trans ih.2 ?_⟩
    unfold interrupt
    split
    · split
      · exact ⟨[.interrupt _], rfl, by simp [Use.Minor]⟩
      · exact ⟨[], by simp, by simp⟩
    · exact ⟨[], by simp, by simp⟩

theorem onCursor_ensures {m : Cursor.Move (List Use × lam) α} {k : Cursor}
    {w : Client × (List Use × lam)} (hk : w.1.cursor = some k)
    {Q : α → Cursor × (List Use × lam) → Prop} {E : Stop → Cursor × (List Use × lam) → Prop}
    (ht : (m (k, w.2)).Ensures (Cursor.LetBe Nearby) Q E) :
    (onCursor m w).Ensures Passed
      (fun a w' => w'.1.db = w.1.db ∧ ∃ k', w'.1.cursor = some k' ∧ Q a (k', w'.2))
      fun stop w' => w'.1.db = w.1.db ∧ ∃ k', w'.1.cursor = some k' ∧ E stop (k', w'.2) := by
  have hlook : w.1.cursor.getD default = k := by simp [hk]
  change Ensures _ _ _ (Turn.focus _ _ (m (w.1.cursor.getD default, w.2)) w)
  rw [hlook]
  refine Ensures.focus (F := fun w' => w'.1.db = w.1.db) ?_ ?_ ?_ ht rfl
  · rintro k' w' w'' hw' ⟨hsame, hnear⟩
    rw [hsame]
    exact ⟨hw', rfl, hnear⟩
  · exact fun _ k' w' hw' hk' => ⟨hw', k'.1, rfl, hk'⟩
  · exact fun _ k' w' hw' hk' => ⟨hw', k'.1, rfl, hk'⟩

structure Proceeds (lib : Library lam) (db : Nat) (text : List UInt8) (log₀ : List Use)
    (w : Client × (List Use × lam)) : Prop where
  handle : w.1.db = some db
  cursor : ∃ k, w.1.cursor = some k ∧ Cursor.Proceeds lib db text log₀ (k, w.2)

theorem onCursor_proceeds {m : Cursor.Move (List Use × lam) α}
    (hm : Keeps (Cursor.LetBe Nearby) (Cursor.Proceeds lib db text log₀) m) :
    Keeps Passed (Proceeds lib db text log₀) (onCursor m) := by
  rintro w ⟨hdb, k, hk, hreads⟩
  refine (onCursor_ensures hk (hm _ hreads)).mono (fun _ _ h => h) ?_ ?_
  · exact fun _ w' h => ⟨h.1.trans hdb, h.2⟩
  · exact fun _ w' h => ⟨h.1.trans hdb, h.2⟩

theorem fetchRow_proceeds : Keeps Passed (Proceeds lib db text log₀) (fetchRow lib.logged) := by
  intro w hw
  unfold fetchRow
  rw [read_bind]
  split
  · exact hw
  · refine onCursor_proceeds (Cursor.keeps_proceeds fun r due => ?_) w hw
    rintro k ⟨st, hk⟩
    exact (Cursor.watched_fetch.mono (fun _ h => h) fun _ h => ⟨st, h⟩) k hk

theorem nextResult_proceeds : Keeps Passed (Proceeds lib db text log₀) (nextResult lib.logged) := by
  intro w hw
  unfold nextResult
  rw [read_bind]
  split
  · exact hw
  · exact onCursor_proceeds (Cursor.keeps_proceeds fun r due => Cursor.watched_advance) w hw

theorem dropCursor_logged (lib : Library lam) (w : Client × (List Use × lam)) :
    ∃ l, dropCursor lib.logged w = .done (.ok ()) ({ w.1 with cursor := none }, l) ∧
      ∃ calls, l.1 = w.2.1 ++ calls ∧ ∀ u ∈ calls, u.isFinalize = true := by
  unfold dropCursor
  rw [read_bind]
  dsimp only
  cases w.1.cursor.bind Cursor.statement with
  | none => exact ⟨w.2, rfl, [], by simp, by simp⟩
  | some statement => exact ⟨_, rfl, [.finalize statement], rfl, by simp [Use.isFinalize]⟩

theorem execute_proceeds {sql : String} (hsql : Text.utf8 sql ≠ [])
    (w : Client × (List Use × lam)) :
    (execute lib.logged sql [] w).Ensures Passed
      (fun _ w' => ∃ db, w.1.db = some db ∧ Proceeds lib db (Text.utf8 sql) w.2.1 w')
      fun _ _ => True := by
  unfold execute
  rw [read_bind]
  cases hdb : w.1.db with
  | none => exact trivial
  | some db =>
    obtain ⟨l, hdrop, calls, hl, hcalls⟩ := dropCursor_logged lib w
    dsimp only
    rw [bind_of_done hdrop]
    split
    · exact trivial
    · let k : Cursor := { db, text := Text.utf8 sql, params := [] }
      have hadvance : (Cursor.advance lib.logged (k, l)).Ensures (Cursor.LetBe Nearby)
          (fun _ => Cursor.Proceeds lib db (Text.utf8 sql) w.2.1) fun _ _ => True :=
        Cursor.advance_proceeds (k := k) rfl rfl hsql rfl rfl hl
          fun u hu => Use.minor_of_isFinalize (hcalls u hu)
      rw [update_bind]
      refine Ensures.andThen ((onCursor_ensures rfl hadvance).mono (fun _ _ h => h) (fun _ _ h => h)
        fun _ _ _ => trivial) ?_
      rintro _ w' ⟨hsame, k, hk, hreads⟩
      exact ⟨db, rfl, hsame.trans hdb, k, hk, hreads⟩

theorem runOut_performs (patience : Nat) {sql : String} (hsql : Text.utf8 sql ≠ [])
    (w : Client × (List Use × lam)) :
    (runOut lib.logged patience sql w).Ensures Passed
      (fun _ w' => w'.1.db = w.1.db ∧ ∃ db, w.1.db = some db ∧ ∃ calls,
        w'.2.1 = w.2.1 ++ calls ∧ Performs db (Text.utf8 sql) calls) fun _ _ => True := by
  refine Ensures.andThen (execute_proceeds hsql w) ?_
  rintro _ w₁ ⟨db, hdb, hreads⟩
  have hread := Backend.keeps_readOut fetchRow_proceeds nextResult_proceeds patience w₁ hreads
  refine Ensures.andThen (hread.mono (fun _ _ h => h) (fun _ _ h => h) fun _ _ _ => trivial) ?_
  rintro _ w₂ ⟨hdb', k, -, r, hcode, st, -, -, -, -, -, hbegun⟩
  obtain ⟨l, hdrop, calls, hl, hcalls⟩ := dropCursor_logged lib w₂
  dsimp only
  rw [hdrop]
  obtain ⟨before, after, hlog, hstep, hbefore, hafter⟩ := hbegun.append
    fun u hu => (Use.minor_of_isFinalize (hcalls u hu)).mono (Nat.zero_le _)
  refine ⟨hdb'.trans hdb.symm, db, hdb, _, hl.trans hlog, ?_⟩
  exact ⟨before, r, after, rfl, hcode, hstep, hbefore, hafter⟩

theorem forM_performs (lib : Library lam) (patience : Nat) {texts : List String}
    (htexts : ∀ sql ∈ texts, Text.utf8 sql ≠ []) (w : Client × (List Use × lam)) :
    (texts.forM (runOut lib.logged patience) w).Ensures Passed
      (fun _ w' => w'.1.db = w.1.db ∧ ∃ runs : List (List Use), w'.2.1 = w.2.1 ++ runs.flatten ∧
        List.Forall₂ (fun sql calls => ∃ db, w.1.db = some db ∧ Performs db (Text.utf8 sql) calls)
          texts runs) fun _ _ => True := by
  induction texts generalizing w with
  | nil => exact ⟨rfl, [], by simp, .nil⟩
  | cons sql texts ih =>
    refine Ensures.andThen (runOut_performs patience (htexts sql (by simp)) w) ?_
    rintro _ w₁ ⟨hdb₁, db, hdb, calls, hcalls, hperforms⟩
    refine (ih (fun sql h => htexts sql (by simp [h])) w₁).mono (fun _ _ h => h) ?_
      fun _ _ _ => trivial
    rintro _ w₂ ⟨hdb₂, runs, hruns, hall⟩
    rw [hdb₁] at hdb₂ hall
    exact ⟨hdb₂, calls :: runs, by simp [hruns, hcalls], .cons ⟨db, hdb, hperforms⟩ hall⟩

theorem letGo_logged (lib : Library lam) (w : Client × (List Use × lam)) :
    ∃ w', letGo lib.logged w = .done (.ok ()) w' ∧
      ∃ calls, w'.2.1 = w.2.1 ++ calls ∧ ∀ u ∈ calls, u.isClose = true ∨ u.isFinalize = true := by
  obtain ⟨l, hdrop, calls, hl, hcalls⟩ := dropCursor_logged lib w
  refine ⟨_, letGo_of_dropCursor hdrop, ?_⟩
  cases w.1.db with
  | none => exact ⟨calls, hl, fun u hu => .inr (hcalls u hu)⟩
  | some db =>
    refine ⟨calls ++ [.close db], ?_, fun u hu => ?_⟩
    · change l.1 ++ [.close db] = _
      rw [hl, List.append_assoc]
    · rcases List.mem_append.mp hu with hu | hu
      · exact .inr (hcalls u hu)
      · rw [List.mem_singleton.mp hu]
        exact .inl rfl

theorem utf8_append_ne_nil {s t : String} (h : s.toList ≠ []) : Text.utf8 (s ++ t) ≠ [] := by
  obtain ⟨c, cs, hs⟩ := List.exists_cons_of_ne_nil h
  have hc : String.utf8EncodeChar c ≠ [] := by
    intro hnil
    have hlength := String.length_utf8EncodeChar c
    have hpos := c.utf8Size_pos
    simp [hnil] at hlength
    omega
  rw [Text.utf8_eq_flatMap, String.toList_append, hs]
  simp [hc]

theorem utf8_setupStatement_ne_nil (l : Layout) :
    ∀ sql ∈ l.setupStatements, Text.utf8 sql ≠ [] := by
  intro sql hsql
  rcases List.mem_append.mp hsql with hsql | hsql
  · split at hsql
    · cases hsql
    · rw [List.mem_singleton.mp hsql]
      decide +kernel
  · obtain ⟨d, -, rfl⟩ := List.mem_map.mp hsql
    rw [Layout.attachStatement, String.append_assoc, String.append_assoc]
    exact utf8_append_ne_nil (by decide)

theorem setUpHandle_performs (patience : Nat) (l : Layout) (db : Option Nat)
    (w : Client × (List Use × lam)) :
    (setUpHandle lib.logged patience l db w).Ensures Passed
      (fun _ w' => ∃ runs : List (List Use), w'.2.1 = w.2.1 ++ runs.flatten ∧
        List.Forall₂ (fun sql run => ∃ h, db = some h ∧ Performs h (Text.utf8 sql) run)
          l.setupStatements runs) fun _ _ => True := by
  have hrun := forM_performs lib patience (utf8_setupStatement_ne_nil l)
    ({ w.1 with db, target := db }, w.2)
  rw [setUpHandle, update_bind]
  refine Ensures.andThen (hrun.attempted.mono (fun _ _ h => h) (fun _ _ h => h)
    fun _ _ _ => trivial) ?_
  rintro (e | _) w' hw'
  · obtain ⟨w'', hgone, -⟩ := letGo_logged lib w'
    dsimp only
    rw [bind_of_done hgone]
    exact trivial
  · exact hw'.2

/-- These calls open a file, after what was open is closed, and run these texts on its handle. -/
def Opens (path : String) (flags : Nat) (texts : List String) (calls : List Use) : Prop :=
  ∃ closing db settling runs, calls = closing ++ .openFile path flags okCode db ::
      (settling ++ List.flatten runs) ∧
    (∀ u ∈ closing, u.isClose = true ∨ u.isFinalize = true) ∧ (∀ u ∈ settling, u.Minor 0) ∧
    List.Forall₂ (fun sql run => ∃ h, db = some h ∧ Performs h (Text.utf8 sql) run) texts runs

theorem openLayout_opens (patience : Nat) (l : Layout) (w : Client × (List Use × lam)) :
    (openLayout lib.logged patience l w).Ensures Passed
      (fun _ w' => ∃ calls, w'.2.1 = w.2.1 ++ calls ∧
        Opens l.path l.flags.toWord l.setupStatements calls) fun _ _ => True := by
  obtain ⟨w₁, hgone, closing, hclosing, hclosed⟩ := letGo_logged lib w
  unfold openLayout
  rw [bind_of_done hgone]
  dsimp only
  split
  · exact trivial
  · cases hopen : lib.openFile l.path l.flags.toWord w₁.2.2 with
    | mk r x =>
      obtain ⟨code, db⟩ := r
      have hcall : lib.logged.openFile l.path l.flags.toWord w₁.2 =
          ((code, db), (w₁.2.1 ++ [.openFile l.path l.flags.toWord code db], x)) := by
        simp [Library.logged, noted, hopen]
      rw [call_bind, hcall]
      dsimp only
      split
      · rw [call_bind]
        exact trivial
      · next hok =>
        obtain rfl := not_not.mp hok
        -- only the call that sets the wait for a lock can stand between the opening and the
        -- statements
        have hends : ∀ (settling : List Use) (w' : Client × (List Use × lam)),
            (∀ u ∈ settling, u.Minor 0) →
            (∃ runs : List (List Use), w'.2.1 = w₁.2.1 ++
              [.openFile l.path l.flags.toWord okCode db] ++ settling ++ runs.flatten ∧
              List.Forall₂ (fun sql run => ∃ h, db = some h ∧ Performs h (Text.utf8 sql) run)
                l.setupStatements runs) →
            ∃ calls, w'.2.1 = w.2.1 ++ calls ∧
              Opens l.path l.flags.toWord l.setupStatements calls := by
          rintro settling w' hsettling ⟨runs, hruns, hall⟩
          exact ⟨_, by simp [hruns, hclosing], closing, db, settling, runs, rfl, hclosed,
            hsettling, hall⟩
        split
        · rw [call_bind]
          refine (setUpHandle_performs patience l db _).mono (fun _ _ h => h) (fun _ w' h => ?_)
            fun _ _ h => h
          exact hends [.busyTimeout db _] w' (by simp [Use.Minor]) h
        · refine (setUpHandle_performs patience l db _).mono (fun _ _ h => h) (fun _ w' h => ?_)
            fun _ _ h => h
          exact hends [] w' (by simp) (by simpa using h)

theorem withMain_eq {base r : Layout} {schema : String} (h : base.withMain schema = some r) :
    ∃ d dropped, base.databases.filter (fun e => e.name = schema) = d :: dropped ∧
      r = { base with
        path := d.path
        name := schema
        attachments := base.databases.filter fun e => e.name ≠ schema } := by
  obtain ⟨d, hd, rfl⟩ := Option.map_eq_some_iff.mp h
  rw [← List.head?_filter] at hd
  obtain ⟨dropped, hsplit⟩ := List.head?_eq_some_iff.mp hd
  exact ⟨d, dropped, hsplit, rfl⟩

/-- These calls open the first database of that name, and run one statement for each database of
another name, which attaches it. The other databases of that name are dropped. -/
def Attaches (base : Layout) (schema : String) (dropped : List Database) (calls : List Use) :
    Prop :=
  ∃ d attached, base.databases.filter (fun e => e.name = schema) = d :: dropped ∧
    base.databases.filter (fun e => e.name ≠ schema) = attached ∧
    (d :: (attached ++ dropped)).Perm base.databases ∧
    Opens d.path base.flags.toWord
      ((if base.flags.readOnly then [] else ["PRAGMA journal_mode = WAL"])
        ++ attached.map Layout.attachStatement) calls

theorem openAt_attaches (patience : Nat) {base : Layout} {schema : String}
    (hholds : base.holds schema = true) (w : Client × (List Use × lam)) :
    (openAt lib.logged patience base schema w).Ensures Passed
      (fun _ w' => ∃ dropped calls, w'.2.1 = w.2.1 ++ calls ∧ Attaches base schema dropped calls)
      fun _ _ => True := by
  rw [← Layout.withMain_isSome] at hholds
  obtain ⟨r, hmain⟩ := Option.isSome_iff_exists.mp hholds
  obtain ⟨d, dropped, hsplit, hr⟩ := withMain_eq hmain
  have hperm := List.filter_append_perm (fun e => decide (e.name = schema)) base.databases
  rw [hsplit] at hperm
  unfold openAt
  rw [hmain]
  refine Ensures.andThen (openLayout_opens patience r w) ?_
  rintro _ w' ⟨calls, hcalls, hopens⟩
  refine ⟨dropped, calls, hcalls, d, _, hsplit, rfl, ?_, ?_⟩
  · refine List.Perm.trans ?_ hperm
    simpa using List.perm_append_comm
  · rw [hr] at hopens
    exact hopens

/-- A connect that succeeds opens one of the configured databases and attaches each of the others
by one statement, but for those that have the name of the one opened: they are left out. -/
theorem connect_leaves_out {patience : Nat} {o : Options} {w w' : Client × (List Use × lam)}
    (h : ((backend lib.logged patience).connect o w).Plays (Interrupted lib.logged) (.ok ()) w') :
    ∃ base dropped calls, Layout.ofOptions o = .ok base ∧ w'.2.1 = w.2.1 ++ calls ∧
      Attaches base (w.1.connectSchema base) dropped calls := by
  have hends : (connect lib.logged patience o w).Ensures Passed
      (fun _ w' => ∃ base dropped calls, Layout.ofOptions o = .ok base ∧ w'.2.1 = w.2.1 ++ calls ∧
        Attaches base (w.1.connectSchema base) dropped calls) fun _ _ => True := by
    unfold connect
    cases hbase : Layout.ofOptions o with
    | error e => exact trivial
    | ok base =>
      dsimp only
      rw [read_bind]
      refine (openAt_attaches patience (holds_connectSchema w.1 base) w).mono (fun _ _ h => h) ?_
        fun _ _ h => h
      rintro _ w' ⟨dropped, calls, hattaches⟩
      exact ⟨base, dropped, calls, rfl, hattaches⟩
  exact (hends.mono (fun _ _ => interrupted_passed) (fun _ _ h => h) fun _ _ h => h).fares h

namespace Namesakes

open Rehearsal

def options : Options :=
  { entries := [("db_file", .string "a.db"), ("database_name", .string "a"), ("attach", .array
      [.object [("db_file", .string "old/a.db"), ("database_name", .string "a")],
        .object [("db_file", .string "b.db"), ("database_name", .string "b")]])] }

def layout : Layout :=
  { path := "a.db", name := "a", attachments := [⟨"a", "old/a.db"⟩, ⟨"b", "b.db"⟩] }

def fresh : Client × (List Use × World) := ({}, ([], { engine := Engine.initial {} }))

theorem connect_leaves_out_namesake :
    ∃ w', (backend Engine.library.logged 5).connect options fresh = .done (.ok ()) w' ∧
      Attaches layout "a" [⟨"a", "old/a.db"⟩] w'.2.1 := by
  have hlayout : Layout.ofOptions options = .ok layout := by decide +kernel
  have hwell : ((backend Engine.library.logged 5).connect options fresh).wentWell = true := by
    decide +kernel
  obtain ⟨⟨⟩, w', hw'⟩ := exists_of_wentWell hwell
  obtain ⟨base, dropped, calls, hbase, hcalls, hattaches⟩ :=
    connect_leaves_out (hw' ▸ Plays.done _ _)
  obtain rfl : layout = base := Except.ok.inj (hlayout.symm.trans hbase)
  obtain ⟨d, attached, hsplit, hattached⟩ := hattaches
  have hdropped : layout.databases.filter (fun e => e.name = "a") =
      [⟨"a", "a.db"⟩, ⟨"a", "old/a.db"⟩] := by decide +kernel
  obtain ⟨rfl, rfl⟩ := List.cons.inj (hsplit.symm.trans hdropped)
  exact ⟨w', hw', hcalls ▸ ⟨_, attached, hsplit, hattached⟩⟩

end Namesakes

end Client
end DatabaseSession.Sqlite
