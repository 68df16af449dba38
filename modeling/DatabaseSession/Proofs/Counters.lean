import DatabaseSession.Proofs.Disposal
import DatabaseSession.Proofs.Evidence

namespace DatabaseSession.Sqlite

open Play Library

variable {lam α β : Type}

namespace Cursor

variable {lib : Library lam} {k : Cursor} {ms earlier : List Mark} {l : lam} {a : Account}
  {Q : α → Cursor × (List Mark × lam) → Prop} {E : Stop → Cursor × (List Mark × lam) → Prop}

/-- Others leave the cursor alone, and get no such answers. -/
def Apart (w w' : Cursor × (List Mark × lam)) : Prop := w'.1 = w.1 ∧ w'.2.1 = w.2.1

def Seen (k : Cursor) (ms : List Mark) (w : Cursor × (List Mark × lam)) : Prop :=
  w.1 = k ∧ w.2.1 = ms

def Silent (f : StateM (List Mark × lam) β) : Prop := ∀ l, (f l).2.1 = l.1

theorem silent_unmarked (f : StateM lam β) : Silent (unmarked f) := fun _ => rfl

theorem Silent.bind {γ : Type} {f : StateM (List Mark × lam) β}
    {g : β → StateM (List Mark × lam) γ} (hf : Silent f) (hg : ∀ b, Silent (g b)) :
    Silent (f >>= g) :=
  fun l => (hg _ _).trans (hf l)

theorem silent_pure (b : β) : Silent (pure b : StateM (List Mark × lam) β) := fun _ => rfl

theorem silent_mapM {γ : Type} {f : γ → StateM (List Mark × lam) β} (h : ∀ c, Silent (f c))
    (cs : List γ) : Silent (cs.mapM f) := by
  induction cs with
  | nil => exact fun _ => rfl
  | cons c cs ih =>
    rw [List.mapM_cons]
    exact (h c).bind fun _ => ih.bind fun _ => silent_pure _

theorem silent_explain (db : Nat) (code : Int) (sql : String) :
    Silent (explain lib.marked db code sql) :=
  (silent_unmarked _).bind fun _ => (silent_unmarked _).bind fun _ => silent_pure _

theorem silent_readColumns (statement count : Nat) :
    Silent (readColumns lib.marked statement count) :=
  silent_mapM (fun _ => (silent_unmarked _).bind fun _ => (silent_unmarked _).bind fun _ =>
    silent_pure _) _

theorem ensures_marking {mark : β → Mark} {f : StateM lam β}
    {g : β → Move (List Mark × lam) α}
    (h : ∀ b l', (g b (k, (ms ++ [mark b], l'))).Ensures Apart Q E) :
    ((call (marking mark f) >>= g) (k, (ms, l))).Ensures Apart Q E :=
  h _ _

theorem ensures_silent {f : StateM (List Mark × lam) β} {g : β → Move (List Mark × lam) α}
    (hf : Silent f) (h : ∀ b l', (g b (k, (ms, l'))).Ensures Apart Q E) :
    ((call f >>= g) (k, (ms, l))).Ensures Apart Q E := by
  have hsame : (f (ms, l)).2 = (ms, (f (ms, l)).2.2) := Prod.ext (hf (ms, l)) rfl
  rw [call_bind, hsame]
  exact h _ _

theorem ensures_kept {m : Move (List Mark × lam) β} {g : β → Move (List Mark × lam) α}
    (hm : Keeps Apart (Seen k ms) m) (hstop : ∀ stop l', E stop (k, (ms, l')))
    (h : ∀ b l', (g b (k, (ms, l'))).Ensures Apart Q E) :
    ((m >>= g) (k, (ms, l))).Ensures Apart Q E := by
  refine Turn.Ensures.andThen ((hm (k, (ms, l)) ⟨rfl, rfl⟩).mono (fun _ _ h => h)
    (fun _ _ h => h) ?_) ?_
  · rintro stop ⟨_, _, l'⟩ ⟨rfl, rfl⟩
    exact hstop stop l'
  · rintro b ⟨_, _, l'⟩ ⟨rfl, rfl⟩
    exact h b l'

theorem ensures_step {statement : Nat} {g : Int → Move (List Mark × lam) α}
    (hstop : ∀ stop l', E stop (k, (ms, l')))
    (h : ∀ code l', (g code (k, (ms ++ [.stepped statement code], l'))).Ensures Apart Q E) :
    ((Play.beside (lib.marked.step statement) >>= g) (k, (ms, l))).Ensures Apart Q E := by
  have hlib : (lib.marked.step statement (ms, l)).Ensures (fun l l' => l'.1 = l.1)
      (fun code l' => l'.1 = ms ++ [.stepped statement code]) fun _ l' => l'.1 = ms := by
    have hown : (Play.beside (lib.step statement) (ms, l)).Ensures
        (fun l l' : List Mark × lam => l'.1 = l.1) (fun _ l' => l'.1 = ms) fun _ l' => l'.1 = ms :=
      Turn.Ensures.focus (F := fun l => l.1 = ms) (fun _ _ _ hl h => ⟨h.trans hl, trivial⟩)
        (fun _ _ _ hl _ => hl) (fun _ _ _ hl _ => hl)
        (Turn.Ensures.trivial (R := fun _ _ => True) _) rfl
    refine Turn.Ensures.andThen hown fun code l' hl' => ?_
    change l'.1 ++ [.stepped statement code] = _
    rw [hl']
  have hbeside : (Play.beside (lib.marked.step statement) (k, (ms, l))).Ensures Apart
      (fun code => Seen k (ms ++ [.stepped statement code])) fun _ => Seen k ms := by
    refine Turn.Ensures.focus (F := fun w => w.1 = k) ?_ ?_ ?_ hlib rfl
    · exact fun _ _ _ hw h => ⟨h.1.trans hw, h.2⟩
    · exact fun _ _ _ hw hl => ⟨hw, hl⟩
    · exact fun _ _ _ hw hl => ⟨hw, hl⟩
  refine Turn.Ensures.andThen (hbeside.mono (fun _ _ h => h) (fun _ _ h => h) ?_) ?_
  · rintro stop ⟨_, _, l'⟩ ⟨rfl, rfl⟩
    exact hstop stop l'
  · rintro code ⟨_, _, l'⟩ ⟨rfl, rfl⟩
    exact h code l'

theorem seen_bindFrom (statement index : Nat) (values : List Value) :
    Keeps Apart (Seen k ms) (bindFrom lib.marked statement index values) := by
  induction values generalizing index with
  | nil => exact leads_pure () fun _ h => h
  | cons value values ih =>
    rintro ⟨_, _, l⟩ ⟨rfl, rfl⟩
    refine ensures_silent (silent_unmarked _) fun code l' => ?_
    dsimp only
    split
    · rw [read_bind]
      exact ensures_silent (silent_explain _ _ _) fun _ _ => ⟨rfl, rfl⟩
    · exact ih (index + 1) _ ⟨rfl, rfl⟩

/-- The cursor is at this statement, and its marks are the last. -/
structure Accounts (a : Account) (earlier : List Mark) (w : Cursor × (List Mark × lam)) :
    Prop where
  marks : w.2.1 = earlier ++ a.marks
  handle : w.1.db = a.db
  statement : w.1.statement = some a.statement
  sql : w.1.sql = a.sql
  total : w.1.changesBefore = a.total
  rowid : w.1.rowidBefore = a.rowid
  exhausted : w.1.exhausted = a.fate.isOver
  stats : w.1.stats = a.stats

theorem Accounts.beside {l' : lam} (h : Accounts a earlier (k, (ms, l))) :
    Accounts a earlier (k, (ms, l')) :=
  ⟨h.marks, h.handle, h.statement, h.sql, h.total, h.rowid, h.exhausted, h.stats⟩

theorem Accounts.ended {marks : List Mark} (hk : Accounts a earlier (k, (marks, l)))
    (hfate : a.fate = .running) :
    (countChanges lib.marked a.statement ({ k with exhausted := true },
      (marks ++ [.stepped a.statement doneCode], l))).Ensures Apart
      (fun _ w' => ∃ columns total changes rowid,
        Accounts { a with fate := .ended columns total changes rowid } earlier w')
      fun _ _ => False := by
  have hmarks := hk.marks
  have hdb := hk.handle
  dsimp only at hmarks hdb
  unfold countChanges
  rw [read_bind]
  refine ensures_marking fun columns _ => ensures_marking fun total _ =>
    ensures_marking fun changes _ => ensures_marking fun rowid _ => ?_
  refine ⟨columns, total, changes, rowid, ?_, hdb, hk.statement, hk.sql, hk.total, hk.rowid, rfl,
    ?_⟩
  · rw [Account.marks_fate hfate]
    simp [hmarks, hdb, Account.Fate.marks]
  · have hcounted := Evidence.statsOf_eq
      ⟨a.sql, columns, a.total, total, changes, a.rowid, rowid⟩
    have hsql := hk.sql
    have htotal := hk.total
    have hrowid := hk.rowid
    dsimp only at hcounted hsql htotal hrowid ⊢
    rw [hsql, htotal, hrowid, hcounted]
    rfl

theorem accounts_stepRow {w : Cursor × (List Mark × lam)} (hw : Accounts a earlier w) :
    (stepRow lib.marked w).Ensures Apart
      (fun r w' => ∃ a', Accounts a' earlier w' ∧ a.Looked r.isSome a')
      fun _ w' => ∃ a', Accounts a' earlier w' ∧ a.LeadsTo a' := by
  obtain ⟨k, ms, l⟩ := w
  have hover := hw.exhausted
  have hst := hw.statement
  dsimp only at hover hst
  unfold stepRow
  rw [read_bind]
  dsimp only
  rw [hover, hst]
  cases hfate : a.fate with
  | failed | ended => exact ⟨a, hw, .refl a, fun _ => by rw [hfate]; rfl, fun h => h⟩
  | running =>
    -- A statement that runs has reported nothing yet; only the code of its end makes it count.
    have hleads : ∀ a', a.LeadsTo a' := fun a' => .of_running hfate a'
    refine ensures_step (fun _ _ => ⟨a, hw.beside, .refl a⟩) fun code l' => ?_
    have hmarks := hw.marks
    dsimp only at hmarks ⊢
    split
    · next hrow =>
      subst hrow
      refine ensures_marking fun n _ => ensures_silent (silent_mapM (fun _ => silent_unmarked _) _)
        fun cells _ => ?_
      refine ⟨{ a with rows := a.rows ++ [n] }, ⟨?_, hw.handle, hw.statement, hw.sql, hw.total,
        hw.rowid, hw.exhausted, ?_⟩, hleads _, by simp, fun h => h⟩
      · rw [Account.marks_row hfate, hmarks]
        simp
      · exact hw.stats.trans ((Account.stats_of_running hfate).trans
          (Account.stats_of_running (a := { a with rows := a.rows ++ [n] }) hfate).symm)
    · next hrow =>
      rw [update_bind]
      dsimp only
      split
      · next hdone =>
        subst hdone
        refine Turn.Ensures.andThen ((hw.beside.ended hfate).mono (fun _ _ h => h) (fun _ _ h => h)
          fun _ _ h => h.elim) ?_
        rintro _ w' ⟨columns, total, changes, rowid, hw'⟩
        exact ⟨_, hw', hleads _, fun _ => rfl, fun h => by cases h⟩
      · next hdone =>
        refine ensures_silent (silent_explain _ _ _) fun _ _ => ?_
        refine ⟨{ a with fate := .failed code ⟨hrow, hdone⟩ }, ⟨?_, hw.handle, hw.statement, hw.sql,
          hw.total, hw.rowid, rfl, ?_⟩, hleads _⟩
        · rw [Account.marks_fate hfate, hmarks]
          simp [Account.Fate.marks]
        · exact hw.stats.trans (Account.stats_of_running hfate)

theorem accounts_fetch {w : Cursor × (List Mark × lam)} (hw : Accounts a earlier w) :
    (fetch lib.marked w).Ensures Apart
      (fun r w' => ∃ a', Accounts a' earlier w' ∧ a.Looked r.isSome a')
      fun _ w' => ∃ a', Accounts a' earlier w' ∧ a.LeadsTo a' := by
  unfold fetch
  rw [read_bind]
  cases w.1.peeked with
  | some row =>
    refine ⟨a, ?_, .refl a, by simp, fun h => h⟩
    exact ⟨hw.marks, hw.handle, hw.statement, hw.sql, hw.total, hw.rowid, hw.exhausted, hw.stats⟩
  | none =>
    refine Turn.Ensures.andThen (accounts_stepRow hw) ?_
    rintro r w' ⟨a', hw', hlooked⟩
    refine ⟨a', hw', ?_⟩
    rwa [Option.isSome_map]

/-- A statement was prepared just now, from so many bytes of this text. -/
structure Poised (text : List UInt8) (taken : Option Nat) (statement : Nat) (earlier : List Mark)
    (w : Cursor × (List Mark × lam)) : Prop where
  marks : w.2.1 = earlier ++ [.prepared w.1.db text ⟨okCode, some statement, taken⟩]
  statement : w.1.statement = some statement
  sql : w.1.sql = Text.trim (Text.decodeLossy (text.take (taken.getD text.length)))

theorem nextStatement_poised (left : Nat) (w : Cursor × (List Mark × lam)) :
    (nextStatement lib.marked left w).Ensures Apart
      (fun more w' => (more = false → w'.1.statement = w.1.statement) ∧
        (more = true → ∃ text taken statement earlier, w.2.1 <+: earlier ∧
          Poised text taken statement earlier w'))
      fun _ _ => True := by
  induction left generalizing w with
  | zero => exact ⟨fun _ => rfl, by simp⟩
  | succ left ih =>
    obtain ⟨k, ms, l⟩ := w
    rw [nextStatement, read_bind]
    split
    · exact ⟨fun _ => rfl, by simp⟩
    · refine ensures_marking fun r l' => ?_
      dsimp only
      split
      · rw [update_bind]
        exact ensures_silent (silent_explain _ _ _) fun _ _ => trivial
      · next hok =>
        rw [update_bind]
        cases hst : r.statement with
        | none =>
          refine (ih _).mono (fun _ _ h => h) ?_ fun _ _ h => h
          rintro more w' ⟨hfalse, htrue⟩
          refine ⟨hfalse, fun hmore => ?_⟩
          obtain ⟨text, taken, statement, earlier, hprefix, hpoised⟩ := htrue hmore
          exact ⟨text, taken, statement, earlier, (List.prefix_append _ _).trans hprefix, hpoised⟩
        | some statement =>
          refine ⟨by simp, fun _ => ⟨_, r.taken, statement, ms, List.prefix_rfl, ?_, rfl, rfl⟩⟩
          obtain ⟨code, st, taken⟩ := r
          cases hst
          cases not_not.mp hok
          rfl

theorem start_accounts {text : List UInt8} {taken : Option Nat} {statement : Nat}
    {w : Cursor × (List Mark × lam)} (hw : Poised text taken statement earlier w) :
    (start lib.marked statement w).Ensures Apart
      (fun _ w' => ∃ a, Accounts a earlier w' ∧ a.fate.isFailure = false) fun _ _ => True := by
  obtain ⟨k, ms, l⟩ := w
  unfold start
  rw [read_bind]
  refine ensures_silent (silent_unmarked _) fun needed _ => ?_
  dsimp only
  split
  · trivial
  · -- binding leaves no mark: a start is marked by its columns and by the two counters
    refine ensures_kept (seen_bindFrom _ _ _) (fun _ _ => trivial) fun _ _ =>
      ensures_marking fun declared _ => ensures_silent (silent_readColumns _ _) fun columns _ =>
      ensures_marking fun total _ => ensures_marking fun rowid l' => ?_
    rw [update_bind]
    have hopened : Accounts ⟨k.db, text, taken, statement, declared, total, rowid, [], .running⟩
        earlier
        ({ k with
            changesBefore := total
            rowidBefore := rowid
            stats := {}
            exhausted := false },
          (ms ++ [.columns statement declared] ++ [.total k.db total] ++ [.rowid k.db rowid],
            l')) := by
      refine ⟨?_, rfl, hw.statement, hw.sql, rfl, rfl, rfl, rfl⟩
      have hmarks := hw.marks
      dsimp only at hmarks
      simp [hmarks, Account.marks, Account.rowMarks, Account.Fate.marks]
    refine Turn.Ensures.andThen ((accounts_stepRow hopened).mono (fun _ _ h => h) (fun _ _ h => h)
      fun _ _ _ => trivial) ?_
    rintro first w' ⟨a, hw', hlooked⟩
    refine ⟨a, ⟨hw'.marks, hw'.handle, hw'.statement, hw'.sql, hw'.total, hw'.rowid, hw'.exhausted,
      hw'.stats⟩, ?_⟩
    rw [← Bool.not_eq_true]
    exact fun h => by cases hlooked.failure h

theorem endStatement_marked (lib : Library lam) (k : Cursor) (ms : List Mark) (l : lam) :
    ∃ k' l', endStatement lib.marked (k, (ms, l)) = .done (.ok ()) (k', (ms, l')) ∧
      k'.statement = none ∧ k'.db = k.db ∧ k'.text = k.text ∧ k'.offset = k.offset := by
  unfold endStatement
  rw [read_bind]
  cases k.statement with
  | none => exact ⟨_, l, rfl, rfl, rfl, rfl, rfl⟩
  | some statement => exact ⟨_, (lib.finalize statement l).2, rfl, rfl, rfl, rfl, rfl⟩

/-- Where the cursor goes on to a statement, the account of that statement is opened anew. -/
theorem advance_accounts (w : Cursor × (List Mark × lam)) :
    (advance lib.marked w).Ensures Apart
      (fun more w' => (more = false → w'.1.statement = none) ∧
        (more = true → ∃ a earlier, w.2.1 <+: earlier ∧ Accounts a earlier w' ∧
          a.fate.isFailure = false))
      fun _ _ => True := by
  obtain ⟨k, ms, l⟩ := w
  obtain ⟨k', l', hend, hnone, -⟩ := endStatement_marked lib k ms l
  unfold advance
  rw [bind_of_done hend, read_bind]
  refine Turn.Ensures.andThen (nextStatement_poised _ _) ?_
  rintro more w' ⟨hfalse, htrue⟩
  cases more with
  | false => exact ⟨fun _ => (hfalse rfl).trans hnone, by simp⟩
  | true =>
    obtain ⟨text, taken, statement, earlier, hprefix, hpoised⟩ := htrue rfl
    dsimp only
    rw [if_pos rfl, read_bind, hpoised.statement]
    refine Turn.Ensures.andThen (start_accounts hpoised) ?_
    rintro _ w'' ⟨a, hw'', hfine⟩
    exact ⟨by simp, fun _ => ⟨a, earlier, hprefix, hw'', hfine⟩⟩

end Cursor

namespace Client

open Turn

variable {lib : Library lam} {w w' : Client × (List Mark × lam)} {a : Account}
  {earlier : List Mark}

/-- Others leave the client alone, and get no such answers. -/
def Apart (w w' : Client × (List Mark × lam)) : Prop := w'.1 = w.1 ∧ w'.2.1 = w.2.1

theorem interrupt_apart (key : Nat) (w : Client × (List Mark × lam)) :
    Apart w (interrupt lib.marked key w) := by
  unfold interrupt
  split
  · split <;> exact ⟨rfl, rfl⟩
  · exact ⟨rfl, rfl⟩

theorem interrupted_apart (h : Interrupted lib.marked w w') : Apart w w' := by
  induction h with
  | refl => exact ⟨rfl, rfl⟩
  | @tail v _ _ hstep ih =>
    obtain ⟨key, rfl⟩ := hstep
    have hlast : Apart v (interrupt lib.marked key v) := interrupt_apart key v
    exact ⟨hlast.1.trans ih.1, hlast.2.trans ih.2⟩

structure Reports (a : Account) (earlier : List Mark) (w : Client × (List Mark × lam)) : Prop where
  cursor : ∃ k, w.1.cursor = some k ∧ Cursor.Accounts a earlier (k, w.2)
  stats : w.1.stats = a.stats

theorem Reports.apart (hw : Reports a earlier w) (h : Apart w w') : Reports a earlier w' := by
  obtain ⟨c, ms, l⟩ := w
  obtain ⟨c', ms', l'⟩ := w'
  obtain ⟨rfl, rfl⟩ := h
  obtain ⟨⟨k, hk, haccounts⟩, hstats⟩ := hw
  exact ⟨⟨k, hk, haccounts.beside⟩, hstats⟩

theorem ensures_onCursor {m : Cursor.Move (List Mark × lam) α}
    {Q : α → Cursor × (List Mark × lam) → Prop} {E : Stop → Cursor × (List Mark × lam) → Prop}
    (hm : (m (w.1.cursor.getD default, w.2)).Ensures Cursor.Apart Q E) :
    (onCursor m w).Ensures Apart
      (fun x w' => w'.1.db = w.1.db ∧
        ∃ k, w'.1.cursor = some k ∧ w'.1.stats = k.stats ∧ Q x (k, w'.2))
      fun stop w' => w'.1.db = w.1.db ∧
        ∃ k, w'.1.cursor = some k ∧ w'.1.stats = k.stats ∧ E stop (k, w'.2) := by
  refine Turn.Ensures.focus (F := fun w' => w'.1.db = w.1.db) ?_ ?_ ?_ hm rfl
  · rintro k w₁ w₂ hdb ⟨hclient, hmarks⟩
    refine ⟨by rw [hclient]; exact hdb, ?_, hmarks⟩
    dsimp only
    rw [hclient]
    rfl
  · exact fun _ k _ hdb h => ⟨hdb, k.1, rfl, rfl, h⟩
  · exact fun _ k _ hdb h => ⟨hdb, k.1, rfl, rfl, h⟩

/-- Where the client goes on to a statement, it reports of that one and not of an earlier one. -/
theorem onCursor_advance (w : Client × (List Mark × lam)) :
    (onCursor (Cursor.advance lib.marked) w).Ensures Apart
      (fun more w' => (more = false → w'.1.cursor.bind Cursor.statement = none) ∧
        (more = true → ∃ a earlier, w.2.1 <+: earlier ∧ Reports a earlier w' ∧
          a.fate.isFailure = false))
      fun _ _ => True := by
  refine (ensures_onCursor (Cursor.advance_accounts _)).mono (fun _ _ h => h) ?_
    fun _ _ _ => trivial
  rintro more w' ⟨-, k, hk, hstats, hfalse, htrue⟩
  constructor
  · intro hmore
    rw [hk]
    exact hfalse hmore
  · intro hmore
    obtain ⟨a, earlier, hprefix, haccounts, hfine⟩ := htrue hmore
    exact ⟨a, earlier, hprefix, ⟨⟨k, hk, haccounts⟩, hstats.trans haccounts.stats⟩, hfine⟩

theorem nextResult_reports (w : Client × (List Mark × lam)) :
    (nextResult lib.marked w).Ensures Apart
      (fun more w' => more = true → ∃ a earlier, w.2.1 <+: earlier ∧ Reports a earlier w' ∧
        a.fate.isFailure = false)
      fun _ _ => True := by
  unfold nextResult
  rw [read_bind]
  split
  · exact fun h => by cases h
  · exact (onCursor_advance w).mono (fun _ _ h => h) (fun _ _ h => h.2) fun _ _ h => h

theorem dropCursor_marked (lib : Library lam) (w : Client × (List Mark × lam)) :
    ∃ l, dropCursor lib.marked w = .done (.ok ()) ({ w.1 with cursor := none }, (w.2.1, l)) := by
  unfold dropCursor
  rw [read_bind]
  dsimp only
  cases w.1.cursor.bind Cursor.statement <;> exact ⟨_, rfl⟩

theorem execute_reports (sql : String) (params : List Value) (w : Client × (List Mark × lam)) :
    (execute lib.marked sql params w).Ensures Apart
      (fun _ w' => (w'.1.cursor.bind Cursor.statement).isSome = true →
        ∃ a earlier, w.2.1 <+: earlier ∧ Reports a earlier w' ∧ a.fate.isFailure = false)
      fun _ _ => True := by
  obtain ⟨l, hdrop⟩ := dropCursor_marked lib w
  unfold execute
  rw [read_bind]
  cases w.1.db with
  | none => trivial
  | some db =>
    dsimp only
    rw [bind_of_done hdrop]
    split
    · trivial
    · rw [update_bind]
      refine Turn.Ensures.andThen (onCursor_advance _) ?_
      rintro more w' ⟨hfalse, htrue⟩ hsome
      cases more with
      | false => simp [hfalse rfl] at hsome
      | true => exact htrue rfl

theorem fetchRow_reports (hw : Reports a earlier w) :
    (fetchRow lib.marked w).Ensures Apart
      (fun r w' => ∃ a', Reports a' earlier w' ∧ a.Looked r.isSome a')
      fun _ w' => ∃ a', Reports a' earlier w' ∧ a.LeadsTo a' := by
  obtain ⟨⟨k, hk, haccounts⟩, -⟩ := hw
  have hcursor : w.1.cursor.getD default = k := by rw [hk]; rfl
  unfold fetchRow
  rw [read_bind, if_neg (by simp [hk])]
  refine (ensures_onCursor (hcursor ▸ Cursor.accounts_fetch haccounts)).mono (fun _ _ h => h) ?_ ?_
  · rintro r w' ⟨-, k', hk', hstats, a', haccounts', hrest⟩
    exact ⟨a', ⟨⟨k', hk', haccounts'⟩, hstats.trans haccounts'.stats⟩, hrest⟩
  · rintro stop w' ⟨-, k', hk', hstats, a', haccounts', hleads⟩
    exact ⟨a', ⟨⟨k', hk', haccounts'⟩, hstats.trans haccounts'.stats⟩, hleads⟩

inductive Starts (lib : Library lam) (w w' : Client × lam) : Prop where
  | execute (sql : String) (params : List Value)
      (h : (Client.execute lib sql params w).Plays (Interrupted lib) (.ok ()) w')
      (hst : (w'.1.cursor.bind Cursor.statement).isSome = true)
  | nextResult (h : (Client.nextResult lib w).Plays (Interrupted lib) (.ok true) w')

/-- Rows are asked for, with these answers. Interrupters may be called meanwhile and between. -/
inductive Fetches (lib : Library lam) (w : Client × lam) :
    List (Except Stop (Option Row)) → Client × lam → Prop where
  | refl : Fetches lib w [] w
  | fetch {answers : List (Except Stop (Option Row))} {x : Except Stop (Option Row)}
      {w₁ w₂ : Client × lam} (h : Fetches lib w answers w₁)
      (hfetch : (fetchRow lib w₁).Plays (Interrupted lib) x w₂) : Fetches lib w (answers ++ [x]) w₂
  | interrupt {answers : List (Except Stop (Option Row))} {w₁ : Client × lam}
      (h : Fetches lib w answers w₁) (key : Nat) :
      Fetches lib w answers (Client.interrupt lib key w₁)

theorem fares_of_plays {Q : α → Client × (List Mark × lam) → Prop}
    {E : Stop → Client × (List Mark × lam) → Prop} {t : Turn (Client × (List Mark × lam)) α}
    (ht : t.Ensures Apart Q E) {x : Except Stop α}
    (h : t.Plays (Interrupted lib.marked) x w) : Fares Q E x w :=
  (ht.mono (fun _ _ => interrupted_apart) (fun _ _ h => h) fun _ _ h => h).fares h

theorem Starts.reports (h : Starts lib.marked w w') :
    ∃ a earlier, w.2.1 <+: earlier ∧ Reports a earlier w' ∧ a.fate.isFailure = false := by
  cases h with
  | execute sql params h hst => exact fares_of_plays (execute_reports sql params w) h hst
  | nextResult h => exact fares_of_plays (nextResult_reports w) h rfl

/-- However rows are asked for, the client reports of the statement that was started. -/
theorem Fetches.reports {answers : List (Except Stop (Option Row))}
    (h : Fetches lib.marked w answers w') (hw : Reports a earlier w)
    (hfine : a.fate.isFailure = false) :
    ∃ a', Reports a' earlier w' ∧ (.ok none ∈ answers → a'.fate.isOver = true) ∧
      (a'.fate.isFailure = true → ∃ stop, .error stop ∈ answers) := by
  induction h with
  | refl => exact ⟨a, hw, by simp, by simp [hfine]⟩
  | interrupt _ key ih =>
    obtain ⟨a', hreports, hrest⟩ := ih
    exact ⟨a', hreports.apart (interrupt_apart key _), hrest⟩
  | @fetch answers x w₁ w₂ _ hfetch ih =>
    obtain ⟨a₁, hreports, hover, hfailed⟩ := ih
    have hfares := fares_of_plays (fetchRow_reports hreports) hfetch
    cases x with
    | ok r =>
      obtain ⟨a₂, hreports', hleads, hends, hfailure⟩ := hfares
      refine ⟨a₂, hreports', ?_, fun h => ?_⟩
      · intro hmem
        rcases List.mem_append.mp hmem with hmem | hmem
        · rw [hleads (hover hmem)]
          exact hover hmem
        · simp only [List.mem_singleton, Except.ok.injEq] at hmem
          exact hends (by rw [← hmem]; rfl)
      · obtain ⟨stop, hmem⟩ := hfailed (hfailure h)
        exact ⟨stop, List.mem_append_left _ hmem⟩
    | error stop =>
      obtain ⟨a₂, hreports', hleads⟩ := hfares
      refine ⟨a₂, hreports', ?_, fun _ => ⟨stop, by simp⟩⟩
      intro hmem
      have hbefore : .ok none ∈ answers := by simpa using hmem
      rw [hleads (hover hbefore)]
      exact hover hbefore

/-- The statistics of a statement are zero until it is seen to end. If it ends without an error they
follow from its text, from its columns, and from the counters before its first step and after its
last, whatever the client did before. -/
theorem stats_counted (lib : Library lam) (patience : Nat) {w w₁ w' : Client × (List Mark × lam)}
    {answers : List (Except Stop (Option Row))} (hstart : Starts lib.marked w w₁)
    (hfetches : Fetches lib.marked w₁ answers w') :
    ∃ (earlier : List Mark) (a : Account), w'.2.1 = earlier ++ a.marks ∧ w.2.1 <+: earlier ∧
      (backend lib.marked patience).stats w' = .done (.ok a.stats) w' ∧
      (.stepped a.statement doneCode ∉ a.marks → a.stats = {}) ∧
      (.ok none ∈ answers → (∀ stop, .error stop ∉ answers) → ∃ e, a.evidence = some e ∧
        a.stats.rowsAffected =
          (if e.total ≠ e.totalBefore ∧ e.columns = 0 then e.changes.toNat else 0) ∧
        ∀ id, a.stats.lastInsertId = some id ↔ id = e.rowid ∧ e.rowid ≠ 0 ∧
          e.total ≠ e.totalBefore ∧ (e.rowid ≠ e.rowidBefore ∨ Inserting e.sql)) ∧
      ∀ {lam' : Type} (lib' : Library lam') {v v₁ v' : Client × (List Mark × lam')}
        {answers' : List (Except Stop (Option Row))}, Starts lib'.marked v v₁ →
        Fetches lib'.marked v₁ answers' v' →
        ∀ (earlier' : List Mark) (a' : Account), v'.2.1 = earlier' ++ a'.marks →
        a'.evidence = a.evidence → v'.1.stats = w'.1.stats := by
  obtain ⟨a₁, earlier, hprefix, hstarted, hfine⟩ := hstart.reports
  obtain ⟨a, hreports, hover, hfailed⟩ := hfetches.reports hstarted hfine
  obtain ⟨k, -, haccounts⟩ := hreports.cursor
  refine ⟨earlier, a, haccounts.marks, hprefix, ?_, Account.stats_of_unended, ?_, ?_⟩
  · change Turn.done (.ok w'.1.stats) w' = _
    rw [hreports.stats]
  · intro hnone hclean
    have hsound : a.fate.isFailure = false := by
      rw [← Bool.not_eq_true]
      intro h
      obtain ⟨stop, hmem⟩ := hfailed h
      exact hclean stop hmem
    obtain ⟨e, he⟩ := Account.evidence_of_over (hover hnone) hsound
    have hstats : a.stats = e.stats := by
      rw [Account.stats, he]
      rfl
    exact ⟨e, he, by rw [hstats]; rfl, fun id => by rw [hstats, e.lastInsertId_iff]⟩
  · -- the marks determine the account, and the account the statistics
    intro lam' lib' v v₁ v' answers' hstart' hfetches' earlier' a' hmarks hsame
    obtain ⟨_, _, -, hstarted', hfine'⟩ := hstart'.reports
    obtain ⟨b, hreports', -⟩ := hfetches'.reports hstarted' hfine'
    obtain ⟨_, -, haccounts'⟩ := hreports'.cursor
    cases Account.eq_of_marks (haccounts'.marks.symm.trans hmarks)
    rw [hreports'.stats, hreports.stats, Account.stats, Account.stats, hsame]

namespace Recount

open Rehearsal

/-- The state that a turn comes to, up to its first question. -/
def after {ω : Type} : Turn ω α → ω
  | .done _ w => w
  | .ask _ _ w _ => w

def ends {ω : Type} (p : Except Stop α → Bool) : Turn ω α → Bool
  | .done x _ => p x
  | .ask .. => false

theorem plays_of_ends {ω : Type} {R : ω → ω → Prop} {p : Except Stop α → Bool} {t : Turn ω α}
    (h : ends p t = true) : ∃ x, p x = true ∧ t.Plays R x (after t) := by
  cases t with
  | done x w => exact ⟨x, h, .done x w⟩
  | ask => cases h

def lived (world : World) (acts : List Act) : Client × (List Mark × World) :=
  acts.foldl (fun w act => after (act.play Engine.library.marked 5 w)) ({}, ([], world))

def answered (row : Bool) (x : Except Stop (Option Row)) : Bool :=
  x.toOption.map Option.isSome = some row

theorem eq_of_answered_false {x : Except Stop (Option Row)} (h : answered false x = true) :
    x = .ok none := by
  rcases x with _ | _ | _
  · cases h
  · rfl
  · cases h

/-- A row is inserted; then a text selects something, and inserts a row of the same number. -/
def reinserting : Client × (List Mark × World) :=
  lived
    { engine := Engine.initial { statements := [
        { sql := "INSERT INTO t VALUES (7)", steps := [{ changes := some 1, rowid := some 7 }] },
        { sql := "insert into u values (7)",
          steps := [{ changes := some 1, rowid := some 7 }] }] } }
    [.openBase { path := "a.db", name := "a" }, .execute "INSERT INTO t VALUES (7)" [], .fetchRow,
      .execute "SELECT 1; insert into u values (7)" []]

def restarted : Client × (List Mark × World) :=
  after (nextResult Engine.library.marked reinserting)

def reinserted : Client × (List Mark × World) := after (fetchRow Engine.library.marked restarted)

theorem stats_counted_reinserted :
    Starts Engine.library.marked reinserting restarted ∧
      Fetches Engine.library.marked restarted [.ok none] reinserted ∧
      ∃ (earlier : List Mark) (a : Account) (e : Evidence),
        reinserted.2.1 = earlier ++ a.marks ∧ a.evidence = some e ∧ e.rowid = 7 ∧
        e.total ≠ e.totalBefore ∧ (e.rowid ≠ e.rowidBefore ∨ Inserting e.sql) ∧
        (backend Engine.library.marked 5).stats reinserted =
          .done (.ok ⟨1, some 7⟩) reinserted := by
  have hstart : Starts Engine.library.marked reinserting restarted := by
    have hnext : ends (fun x => x.toOption = some true)
        (nextResult Engine.library.marked reinserting) = true := by decide +kernel
    obtain ⟨x, hx, hplays⟩ := plays_of_ends hnext
    rcases x with _ | _ | _
    · cases hx
    · cases hx
    · exact .nextResult hplays
  have hfetches : Fetches Engine.library.marked restarted [.ok none] reinserted := by
    have hfetch : ends (answered false) (fetchRow Engine.library.marked restarted) = true := by
      decide +kernel
    obtain ⟨x, hx, hplays⟩ := plays_of_ends hfetch
    cases eq_of_answered_false hx
    exact Fetches.refl.fetch hplays
  obtain ⟨earlier, a, hmarks, -, hstats, -, hcounted, -⟩ :=
    stats_counted Engine.library 5 hstart hfetches
  obtain ⟨e, he, -, hinserted⟩ := hcounted (by simp) (by simp)
  have hseen : reinserted.1.stats = ⟨1, some 7⟩ := by decide +kernel
  have htold : (backend Engine.library.marked 5).stats reinserted =
      .done (.ok ⟨1, some 7⟩) reinserted := by rw [← hseen]; rfl
  have ha : a.stats = ⟨1, some 7⟩ := by
    rw [htold] at hstats
    simp only [Turn.done.injEq, Except.ok.injEq, and_true] at hstats
    exact hstats.symm
  obtain ⟨hid, -, hmoved, hwhy⟩ := (hinserted 7).mp (by rw [ha])
  exact ⟨hstart, hfetches, earlier, a, e, hmarks, he, hid.symm, hmoved, hwhy, htold⟩

/-- A statement inserts a row, returns it, and fails at its next step. -/
def opened : Client × (List Mark × World) :=
  lived
    { engine := Engine.initial { statements := [
        { sql := "INSERT INTO t VALUES (1) RETURNING id",
          columns := [(some (Text.utf8 "id"), some (Text.utf8 "INTEGER"))]
          steps := [{ row := some [.int 7], changes := some 1, rowid := some 7 },
            { fault := { code := 19 } }] }] } }
    [.openBase { path := "a.db", name := "a" }]

def returning : Client × (List Mark × World) :=
  after (execute Engine.library.marked "INSERT INTO t VALUES (1) RETURNING id" [] opened)

def returned : Client × (List Mark × World) := after (fetchRow Engine.library.marked returning)

def failed : Client × (List Mark × World) := after (fetchRow Engine.library.marked returned)

def finished : Client × (List Mark × World) := after (fetchRow Engine.library.marked failed)

/-- There is no further row, and the counters have moved, but nothing is counted. -/
theorem failed_step_uncounted :
    Starts Engine.library.marked opened returning ∧
      (∃ row stop, Fetches Engine.library.marked returning
        [.ok (some row), .error stop, .ok none] finished) ∧
      (Engine.library.totalChanges 1 opened.2.2).1 = 0 ∧
      (Engine.library.totalChanges 1 finished.2.2).1 = 1 ∧
      (Engine.library.lastRowid 1 opened.2.2).1 = 0 ∧
      (Engine.library.lastRowid 1 finished.2.2).1 = 7 ∧
      (backend Engine.library.marked 5).stats finished = .done (.ok {}) finished := by
  refine ⟨?_, ?_, by decide +kernel, by decide +kernel, by decide +kernel, by decide +kernel, ?_⟩
  · have hwell : ends (fun x => x.isOk) (execute Engine.library.marked
        "INSERT INTO t VALUES (1) RETURNING id" [] opened) = true := by decide +kernel
    obtain ⟨x, hx, hplays⟩ := plays_of_ends hwell
    rcases x with _ | ⟨⟩
    · cases hx
    · exact .execute _ _ hplays (by decide +kernel)
  · have hrow : ends (answered true) (fetchRow Engine.library.marked returning) = true := by
      decide +kernel
    have hfailed : ends (fun x => !x.isOk) (fetchRow Engine.library.marked returned) = true := by
      decide +kernel
    have hnone : ends (answered false) (fetchRow Engine.library.marked failed) = true := by
      decide +kernel
    obtain ⟨x, hx, hfirst⟩ := plays_of_ends hrow
    obtain ⟨y, hy, hsecond⟩ := plays_of_ends hfailed
    obtain ⟨z, hz, hthird⟩ := plays_of_ends hnone
    cases eq_of_answered_false hz
    rcases x with _ | _ | row
    · cases hx
    · cases hx
    · rcases y with stop | _
      · exact ⟨row, stop, ((Fetches.refl.fetch hfirst).fetch hsecond).fetch hthird⟩
      · cases hy
  · have hseen : finished.1.stats = {} := by decide +kernel
    rw [← hseen]
    rfl

end Recount
end Client
end DatabaseSession.Sqlite
