import Mathlib.Data.List.Induction
import DatabaseSession.Sqlite.Library

namespace DatabaseSession.Sqlite

variable {lam α : Type}

namespace Library

/-- A call of the library, with the answer where that hands something over. -/
inductive Use where
  | openFile (path : String) (flags : Nat) (code : Int) (db : Option Nat)
  | close (db : Nat)
  | errorMessage (db : Nat)
  | errorCode (db : Nat)
  | busyTimeout (db : Option Nat) (ms : Nat)
  | prepare (db : Nat) (text : List UInt8) (prepared : Prepared)
  | finalize (statement : Nat)
  | parameterCount (statement : Nat)
  | bind (statement index : Nat) (binding : Binding)
  | step (statement : Nat)
  | columnCount (statement : Nat)
  | columnName (statement index : Nat)
  | declaredType (statement index : Nat)
  | cell (statement index : Nat)
  | changes (db : Nat)
  | totalChanges (db : Nat)
  | lastRowid (db : Nat)
  | interrupt (db : Nat)

namespace Use

def handle? : Use → Option Nat
  | .close db | .errorMessage db | .errorCode db | .prepare db _ _ | .changes db
  | .totalChanges db | .lastRowid db | .interrupt db => some db
  | .busyTimeout db _ => db
  | _ => none

def statement? : Use → Option Nat
  | .finalize statement | .parameterCount statement | .bind statement _ _ | .step statement
  | .columnCount statement | .columnName statement _ | .declaredType statement _
  | .cell statement _ => some statement
  | _ => none

def opened? : Use → Option Nat
  | .openFile _ _ _ db => db
  | _ => none

def prepared? : Use → Option Nat
  | .prepare _ _ prepared => prepared.statement
  | _ => none

def isClose : Use → Bool
  | .close _ => true
  | _ => false

def isFinalize : Use → Bool
  | .finalize _ => true
  | _ => false

theorem opened?_of_prepared {u : Use} {statement : Nat} (h : u.prepared? = some statement) :
    u.opened? = none ∧ u.isClose = false := by
  cases u with
  | prepare => exact ⟨rfl, rfl⟩
  | _ => cases h

end Use

def noted (call : α → Use) (f : StateM lam α) : StateM (List Use × lam) α := fun l =>
  ((f l.2).1, (l.1 ++ [call (f l.2).1], (f l.2).2))

/-- The library with a log of all calls. -/
def logged (lib : Library lam) : Library (List Use × lam) where
  version := lib.version
  errorString := lib.errorString
  openFile path flags := noted (fun r => .openFile path flags r.1 r.2) (lib.openFile path flags)
  close db := noted (fun _ => .close db) (lib.close db)
  errorMessage db := noted (fun _ => .errorMessage db) (lib.errorMessage db)
  errorCode db := noted (fun _ => .errorCode db) (lib.errorCode db)
  busyTimeout db ms := noted (fun _ => .busyTimeout db ms) (lib.busyTimeout db ms)
  prepare db text := noted (.prepare db text) (lib.prepare db text)
  finalize statement := noted (fun _ => .finalize statement) (lib.finalize statement)
  parameterCount statement :=
    noted (fun _ => .parameterCount statement) (lib.parameterCount statement)
  bind statement index binding :=
    noted (fun _ => .bind statement index binding) (lib.bind statement index binding)
  step statement := fun l => Play.beside (lib.step statement) (l.1 ++ [.step statement], l.2)
  columnCount statement := noted (fun _ => .columnCount statement) (lib.columnCount statement)
  columnName statement i := noted (fun _ => .columnName statement i) (lib.columnName statement i)
  declaredType statement i :=
    noted (fun _ => .declaredType statement i) (lib.declaredType statement i)
  cell statement i := noted (fun _ => .cell statement i) (lib.cell statement i)
  changes db := noted (fun _ => .changes db) (lib.changes db)
  totalChanges db := noted (fun _ => .totalChanges db) (lib.totalChanges db)
  lastRowid db := noted (fun _ => .lastRowid db) (lib.lastRowid db)
  interrupt db := noted (fun _ => .interrupt db) (lib.interrupt db)

def HandleLives (db : Nat) (log : List Use) : Prop :=
  ∃ before call after, log = before ++ call :: after ∧ call.opened? = some db ∧
    .close db ∉ after

def StatementLives (statement : Nat) (log : List Use) : Prop :=
  ∃ before call after, log = before ++ call :: after ∧ call.prepared? = some statement ∧
    .finalize statement ∉ after

/-- Handles and statements are used as they should be. -/
structure Orderly (log : List Use) : Prop where
  /-- A handle is closed once, and until then there is no other. -/
  closed : ∀ before call after db, log = before ++ call :: after → call.opened? = some db →
    ∃ during rest, after = during ++ .close db :: rest ∧
      ∀ c ∈ during, c.opened? = none ∧ c.isClose = false
  /-- A statement is finalized once, and until then there is no other and no handle is closed. -/
  finalized : ∀ before call after statement, log = before ++ call :: after →
    call.prepared? = some statement → ∃ during rest, after = during ++ .finalize statement :: rest ∧
      ∀ c ∈ during, c.prepared? = none ∧ c.isFinalize = false ∧ c.isClose = false
  /-- No call is made with a handle that is closed or a statement that is finalized. -/
  live : ∀ before call after, log = before ++ call :: after →
    (∀ db, call.handle? = some db → HandleLives db before) ∧
      ∀ statement, call.statement? = some statement → StatementLives statement before

end Library

open Library

/-- The handle and the statement that are in use. -/
structure Custody where
  db : Option Nat := none
  statement : Option Nat := none
  deriving DecidableEq

namespace Custody

/-- What a call makes of them, if it is in order. -/
def next (c : Custody) : Use → Option Custody
  | .openFile _ _ _ none => some c
  | .openFile _ _ _ (some db) => if c = {} then some { db := some db } else none
  | .close db => if c = { db := some db } then some {} else none
  | .prepare db _ prepared =>
    if c.db = some db then
      match prepared.statement with
      | none => some c
      | some statement =>
        if c.statement = none then some { c with statement := some statement } else none
    else none
  | .finalize statement =>
    if c.statement = some statement then some { c with statement := none } else none
  | call =>
    if (∀ db ∈ call.handle?, c.db = some db) ∧ ∀ st ∈ call.statement?, c.statement = some st then
      some c
    else none

def after (c : Custody) (log : List Use) : Option Custody := log.foldlM next c

theorem after_append (c : Custody) (log log' : List Use) :
    c.after (log ++ log') = (c.after log).bind fun c' => c'.after log' := by
  simp [after, List.foldlM_append]

theorem after_cons (c : Custody) (call : Use) (log : List Use) :
    c.after (call :: log) = (c.next call).bind fun c' => c'.after log := by
  simp [after]

/-- A call opens the handle, closes it, prepares a statement, finalizes it, or changes nothing. -/
theorem next_cases {c c' : Custody} {call : Use} (h : c.next call = some c') :
    (∃ db, call.opened? = some db ∧ c = {} ∧ c' = { db := some db }) ∨
    (∃ db, call = .close db ∧ c = { db := some db } ∧ c' = {}) ∨
    (∃ db st, call.prepared? = some st ∧ c = { db := some db } ∧ c' = ⟨some db, some st⟩) ∨
    (∃ st, call = .finalize st ∧ c.statement = some st ∧ c' = { c with statement := none }) ∨
    (call.opened? = none ∧ call.isClose = false ∧ call.prepared? = none ∧
      call.isFinalize = false ∧ c' = c) := by
  cases call with
  -- what is handed over decides: an opening without a handle changes nothing
  | openFile path flags code db =>
    cases db with
    | none =>
      cases h
      exact .inr (.inr (.inr (.inr ⟨rfl, rfl, rfl, rfl, rfl⟩)))
    | some db =>
      obtain ⟨hc, hc'⟩ := Option.ite_none_right_eq_some.mp h
      cases hc'
      exact .inl ⟨db, rfl, hc, rfl⟩
  | close db =>
    obtain ⟨hc, hc'⟩ := Option.ite_none_right_eq_some.mp h
    cases hc'
    exact .inr (.inl ⟨db, rfl, hc, rfl⟩)
  | prepare db text prepared =>
    obtain ⟨hdb, h⟩ := Option.ite_none_right_eq_some.mp h
    cases hst : prepared.statement with
    | none =>
      rw [hst] at h
      cases h
      exact .inr (.inr (.inr (.inr ⟨rfl, rfl, hst, rfl, rfl⟩)))
    | some st =>
      rw [hst] at h
      obtain ⟨hfree, hc'⟩ := Option.ite_none_right_eq_some.mp h
      cases hc'
      cases c
      cases hdb
      cases hfree
      exact .inr (.inr (.inl ⟨db, st, hst, rfl, rfl⟩))
  | finalize st =>
    obtain ⟨hst, hc'⟩ := Option.ite_none_right_eq_some.mp h
    cases hc'
    exact .inr (.inr (.inr (.inl ⟨st, rfl, hst, rfl⟩)))
  | _ =>
    obtain ⟨-, hc'⟩ := Option.ite_none_right_eq_some.mp h
    cases hc'
    exact .inr (.inr (.inr (.inr ⟨rfl, rfl, rfl, rfl, rfl⟩)))

theorem next_live {c c' : Custody} {call : Use} (h : c.next call = some c') :
    (∀ db, call.handle? = some db → c.db = some db) ∧
      ∀ st, call.statement? = some st → c.statement = some st := by
  cases call with
  | openFile path flags code db => exact ⟨nofun, nofun⟩
  | close db =>
    obtain ⟨rfl, -⟩ := Option.ite_none_right_eq_some.mp h
    exact ⟨fun _ h => h, nofun⟩
  | prepare db text prepared =>
    obtain ⟨hdb, -⟩ := Option.ite_none_right_eq_some.mp h
    exact ⟨fun _ h => hdb.trans h, nofun⟩
  | finalize st =>
    obtain ⟨hst, -⟩ := Option.ite_none_right_eq_some.mp h
    exact ⟨nofun, fun _ h => hst.trans h⟩
  | _ =>
    obtain ⟨hlive, -⟩ := Option.ite_none_right_eq_some.mp h
    exact hlive

theorem lives_of_after {c : Custody} {log : List Use} (h : after {} log = some c) :
    (∀ db, c.db = some db → HandleLives db log) ∧
      ∀ st, c.statement = some st → StatementLives st log := by
  -- by the last call: the one in use came with it, or was in use before and is not what it takes
  -- back
  induction log using List.reverseRecOn generalizing c with
  | nil =>
    cases h
    exact ⟨nofun, nofun⟩
  | append_singleton log call ih =>
    rw [after_append] at h
    obtain ⟨c₁, hinit, hlast⟩ := Option.bind_eq_some_iff.mp h
    rw [after_cons] at hlast
    obtain ⟨c₂, hnext, hc⟩ := Option.bind_eq_some_iff.mp hlast
    cases hc
    obtain ⟨hdb, hst⟩ := ih hinit
    have hgoes : ∀ db, HandleLives db log → call ≠ .close db → HandleLives db (log ++ [call]) := by
      rintro db ⟨a, o, b, rfl, ho, hb⟩ hne
      exact ⟨a, o, b ++ [call], by simp, ho, by simp [hb, Ne.symm hne]⟩
    have hruns : ∀ st, StatementLives st log → call ≠ .finalize st →
        StatementLives st (log ++ [call]) := by
      rintro st ⟨a, o, b, rfl, ho, hb⟩ hne
      exact ⟨a, o, b ++ [call], by simp, ho, by simp [hb, Ne.symm hne]⟩
    rcases next_cases hnext with ⟨db, hopen, rfl, rfl⟩ | ⟨db, rfl, rfl, rfl⟩ |
      ⟨db, st, hprep, rfl, rfl⟩ | ⟨st, rfl, hheld, rfl⟩ | ⟨-, hclose, -, hfin, rfl⟩
    · refine ⟨fun db' h => ?_, nofun⟩
      cases h
      exact ⟨log, call, [], rfl, hopen, by simp⟩
    · exact ⟨nofun, nofun⟩
    · refine ⟨fun db' h => hgoes db' (hdb db' h) ?_, fun st' h => ?_⟩
      · rintro rfl
        cases hprep
      · cases h
        exact ⟨log, call, [], rfl, hprep, by simp⟩
    · exact ⟨fun db h => hgoes db (hdb db h) (by simp), nofun⟩
    · refine ⟨fun db h => hgoes db (hdb db h) ?_, fun st h => hruns st (hst st h) ?_⟩
      · rintro rfl
        cases hclose
      · rintro rfl
        cases hfin

theorem closed_of_after {db : Nat} {st : Option Nat} {log : List Use}
    (h : after ⟨some db, st⟩ log = some {}) :
    ∃ during rest, log = during ++ .close db :: rest ∧
      ∀ c ∈ during, c.opened? = none ∧ c.isClose = false := by
  induction log generalizing st with
  | nil => cases h
  | cons call log ih =>
    rw [after_cons] at h
    obtain ⟨c, hnext, hrest⟩ := Option.bind_eq_some_iff.mp h
    have hlater : ∀ {st'}, after ⟨some db, st'⟩ log = some {} → call.opened? = none →
        call.isClose = false → ∃ during rest, call :: log = during ++ .close db :: rest ∧
          ∀ c ∈ during, c.opened? = none ∧ c.isClose = false := by
      intro st' h hopen hclose
      obtain ⟨during, rest, rfl, hduring⟩ := ih h
      exact ⟨call :: during, rest, rfl, by simpa [hopen, hclose] using hduring⟩
    rcases next_cases hnext with ⟨_, _, hc, -⟩ | ⟨_, rfl, hc, rfl⟩ | ⟨_, _, hprep, hc, rfl⟩ |
      ⟨_, rfl, -, rfl⟩ | ⟨hopen, hclose, -, -, rfl⟩
    · cases hc
    · cases hc
      exact ⟨[], log, rfl, by simp⟩
    · cases hc
      obtain ⟨hopen, hclose⟩ := Use.opened?_of_prepared hprep
      exact hlater hrest hopen hclose
    · exact hlater hrest rfl rfl
    · exact hlater hrest hopen hclose

theorem finalized_of_after {db : Option Nat} {st : Nat} {log : List Use}
    (h : after ⟨db, some st⟩ log = some {}) :
    ∃ during rest, log = during ++ .finalize st :: rest ∧
      ∀ c ∈ during, c.prepared? = none ∧ c.isFinalize = false ∧ c.isClose = false := by
  induction log with
  | nil => cases h
  | cons call log ih =>
    rw [after_cons] at h
    obtain ⟨c, hnext, hrest⟩ := Option.bind_eq_some_iff.mp h
    rcases next_cases hnext with ⟨_, _, hc, -⟩ | ⟨_, _, hc, -⟩ | ⟨_, _, _, hc, -⟩ |
      ⟨_, rfl, hst, rfl⟩ | ⟨-, hclose, hprep, hfin, rfl⟩
    · cases hc
    · cases hc
    · cases hc
    · cases hst
      exact ⟨[], log, rfl, by simp⟩
    · obtain ⟨during, rest, rfl, hduring⟩ := ih hrest
      exact ⟨call :: during, rest, rfl, by simpa [hprep, hfin, hclose] using hduring⟩

/-- A log whose calls are in order from nothing in use to nothing in use. -/
theorem orderly_of_after {log : List Use} (h : after {} log = some {}) : Orderly log := by
  -- every call is made with something in use, and leaves something in use
  have hsplit : ∀ before call rest, log = before ++ call :: rest → ∃ c c',
      after {} before = some c ∧ c.next call = some c' ∧ c'.after rest = some {} := by
    rintro before call rest rfl
    rw [after_append] at h
    obtain ⟨c, hbefore, hrest⟩ := Option.bind_eq_some_iff.mp h
    rw [after_cons] at hrest
    obtain ⟨c', hnext, hrest⟩ := Option.bind_eq_some_iff.mp hrest
    exact ⟨c, c', hbefore, hnext, hrest⟩
  constructor
  · intro before call rest db hlog hopen
    obtain ⟨c, c', -, hnext, hrest⟩ := hsplit before call rest hlog
    rcases next_cases hnext with ⟨_, hopen', -, rfl⟩ | ⟨_, rfl, -⟩ | ⟨_, _, hprep, -⟩ |
      ⟨_, rfl, -⟩ | ⟨hopen', -⟩
    · rw [hopen] at hopen'
      cases hopen'
      exact closed_of_after hrest
    · cases hopen
    · rw [(Use.opened?_of_prepared hprep).1] at hopen
      cases hopen
    · cases hopen
    · rw [hopen] at hopen'
      cases hopen'
  · intro before call rest st hlog hprep
    obtain ⟨c, c', -, hnext, hrest⟩ := hsplit before call rest hlog
    rcases next_cases hnext with ⟨_, hopen, -⟩ | ⟨_, rfl, -⟩ | ⟨_, _, hprep', -, rfl⟩ |
      ⟨_, rfl, -⟩ | ⟨-, -, hprep', -⟩
    · rw [(Use.opened?_of_prepared hprep).1] at hopen
      cases hopen
    · cases hprep
    · rw [hprep] at hprep'
      cases hprep'
      exact finalized_of_after hrest
    · cases hprep
    · rw [hprep] at hprep'
      cases hprep'
  · intro before call rest hlog
    obtain ⟨c, c', hbefore, hnext, -⟩ := hsplit before call rest hlog
    obtain ⟨hdb, hst⟩ := next_live hnext
    obtain ⟨hhandle, hstatement⟩ := lives_of_after hbefore
    exact ⟨fun db h => hhandle db (hdb db h), fun st h => hstatement st (hst st h)⟩

end Custody
end DatabaseSession.Sqlite
