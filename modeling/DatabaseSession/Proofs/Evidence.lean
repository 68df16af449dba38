import Mathlib.Data.List.TakeWhile
import DatabaseSession.Sqlite.Cursor

namespace DatabaseSession.Sqlite

open Play

variable {lam α β : Type}

/-- The first word of the text is one that inserts rows, in capitals or not. -/
def Inserting (sql : String) : Prop :=
  ∃ blanks word rest, sql.toList = blanks ++ (word ++ rest) ∧
    (∀ c ∈ blanks, Text.isBlank c = true) ∧ (∀ c ∈ word, Text.isBlank c = false) ∧
    (∀ c ∈ rest.head?, Text.isBlank c = true) ∧
    (word.map Char.toUpper = "INSERT".toList ∨ word.map Char.toUpper = "REPLACE".toList)

theorem firstWord_of_split {sql : String} {blanks word rest : List Char}
    (hsql : sql.toList = blanks ++ (word ++ rest))
    (hblanks : ∀ c ∈ blanks, Text.isBlank c = true) (hword : ∀ c ∈ word, Text.isBlank c = false)
    (hrest : ∀ c ∈ rest.head?, Text.isBlank c = true) (hne : word ≠ []) :
    (Text.firstWord sql).toList = word := by
  have hskipped : (blanks ++ (word ++ rest)).dropWhile Text.isBlank = word ++ rest := by
    rw [List.dropWhile_append_of_pos hblanks]
    cases word with
    | nil => exact absurd rfl hne
    | cons c cs => simp [hword c (by simp)]
  have hcut : rest.takeWhile (fun c => !Text.isBlank c) = [] := by
    cases rest with
    | nil => rfl
    | cons c cs => simp [hrest c rfl]
  rw [Text.firstWord, String.toList_ofList, hsql, hskipped,
    List.takeWhile_append_of_pos (by simpa using hword), hcut, List.append_nil]

theorem insertsRows_iff (sql : String) : insertsRows sql = true ↔ Inserting sql := by
  have hbegins : insertsRows sql = true ↔
      (Text.firstWord sql).toList.map Char.toUpper = "INSERT".toList ∨
        (Text.firstWord sql).toList.map Char.toUpper = "REPLACE".toList := by
    simp [insertsRows]
  rw [hbegins]
  constructor
  · intro hword
    refine ⟨sql.toList.takeWhile Text.isBlank, (Text.firstWord sql).toList,
      (sql.toList.dropWhile Text.isBlank).dropWhile fun c => !Text.isBlank c, ?_, ?_, ?_, ?_, hword⟩
    · rw [Text.firstWord, String.toList_ofList, List.takeWhile_append_dropWhile,
        List.takeWhile_append_dropWhile]
    · exact fun c hc => List.mem_takeWhile_imp hc
    · intro c hc
      rw [Text.firstWord, String.toList_ofList] at hc
      simpa using List.mem_takeWhile_imp hc
    · intro c hc
      have hhead := List.head?_dropWhile_not (fun c => !Text.isBlank c)
        (sql.toList.dropWhile Text.isBlank)
      rw [Option.mem_def.mp hc] at hhead
      simpa using hhead
  · rintro ⟨blanks, word, rest, hsql, hblanks, hword, hrest, hinserts⟩
    have hne : word ≠ [] := by
      rintro rfl
      rcases hinserts with h | h <;> cases h
    rwa [firstWord_of_split hsql hblanks hword hrest hne]

namespace Library

/-- An answer that tells of a statement: where it begins, how far it comes, how the counters
stand. -/
inductive Mark where
  | prepared (db : Nat) (text : List UInt8) (answer : Prepared)
  | columns (statement count : Nat)
  | total (db : Nat) (count : Int)
  | changes (db : Nat) (count : Int)
  | rowid (db : Nat) (id : Int)
  | stepped (statement : Nat) (code : Int)

/-- The same call, its answer marked. -/
def marking (mark : α → Mark) (f : StateM lam α) : StateM (List Mark × lam) α := fun l =>
  ((f l.2).1, (l.1 ++ [mark (f l.2).1], (f l.2).2))

def unmarked (f : StateM lam α) : StateM (List Mark × lam) α := fun l =>
  ((f l.2).1, (l.1, (f l.2).2))

/-- The library with marks of what it answers. -/
def marked (lib : Library lam) : Library (List Mark × lam) where
  version := lib.version
  errorString := lib.errorString
  openFile path flags := unmarked (lib.openFile path flags)
  close db := unmarked (lib.close db)
  errorMessage db := unmarked (lib.errorMessage db)
  errorCode db := unmarked (lib.errorCode db)
  busyTimeout db ms := unmarked (lib.busyTimeout db ms)
  prepare db text := marking (.prepared db text) (lib.prepare db text)
  finalize statement := unmarked (lib.finalize statement)
  parameterCount statement := unmarked (lib.parameterCount statement)
  bind statement index binding := unmarked (lib.bind statement index binding)
  step statement := do
    let code ← Play.beside (lib.step statement)
    Play.modify fun l => (l.1 ++ [.stepped statement code], l.2)
    return code
  columnCount statement := marking (.columns statement) (lib.columnCount statement)
  columnName statement i := unmarked (lib.columnName statement i)
  declaredType statement i := unmarked (lib.declaredType statement i)
  cell statement i := unmarked (lib.cell statement i)
  changes db := marking (.changes db) (lib.changes db)
  totalChanges db := marking (.total db) (lib.totalChanges db)
  lastRowid db := marking (.rowid db) (lib.lastRowid db)
  interrupt db := unmarked (lib.interrupt db)

end Library

open Library

/-- What the statistics of a statement may depend on. -/
structure Evidence where
  sql : String
  columns : Nat
  totalBefore : Int
  total : Int
  changes : Int
  rowidBefore : Int
  rowid : Int
  deriving DecidableEq

namespace Evidence

def stats (e : Evidence) : StatementStats where
  rowsAffected := if e.total ≠ e.totalBefore ∧ e.columns = 0 then e.changes.toNat else 0
  lastInsertId :=
    if e.rowid ≠ 0 ∧ e.total ≠ e.totalBefore ∧
      (e.rowid ≠ e.rowidBefore ∨ insertsRows e.sql = true) then some e.rowid
    else none

theorem lastInsertId_iff (e : Evidence) (id : Int) :
    e.stats.lastInsertId = some id ↔ id = e.rowid ∧ e.rowid ≠ 0 ∧ e.total ≠ e.totalBefore ∧
      (e.rowid ≠ e.rowidBefore ∨ Inserting e.sql) := by
  rw [← insertsRows_iff]
  unfold stats
  dsimp only
  split
  · next h => exact ⟨fun hid => ⟨(Option.some.inj hid).symm, h⟩, fun hid => by rw [hid.1]⟩
  · next h => exact ⟨fun hid => (by cases hid), fun hid => absurd hid.2 h⟩

theorem statsOf_eq (e : Evidence) :
    Cursor.statsOf (decide (0 < e.columns)) e.totalBefore e.total e.changes e.rowidBefore e.rowid
      e.sql = e.stats := by
  unfold Cursor.statsOf stats
  rw [StatementStats.mk.injEq]
  constructor
  · simp [Nat.pos_iff_ne_zero]
  · refine if_congr ?_ rfl rfl
    simp only [Bool.and_eq_true, Bool.or_eq_true, decide_eq_true_eq]
    exact and_comm

end Evidence

/-- How a statement that was started goes on. -/
inductive Account.Fate where
  | running
  | failed (code : Int) (h : code ≠ rowCode ∧ code ≠ doneCode)
  | ended (columns : Nat) (total changes rowid : Int)

/-- A statement that was started: what it was prepared from, how the counters stood then, the
numbers of columns of its rows, and how it goes on. -/
structure Account where
  db : Nat
  text : List UInt8
  taken : Option Nat
  statement : Nat
  declared : Nat
  total : Int
  rowid : Int
  rows : List Nat := []
  fate : Account.Fate := .running

namespace Account

/-- The answers that come with the rows of a statement. -/
def rowMarks (statement : Nat) (rows : List Nat) : List Mark :=
  rows.flatMap fun n => [.stepped statement rowCode, .columns statement n]

/-- The answers that come when no more rows do. -/
def Fate.marks (db statement : Nat) : Fate → List Mark
  | .running => []
  | .failed code _ => [.stepped statement code]
  | .ended columns total changes rowid =>
    [.stepped statement doneCode, .columns statement columns, .total db total, .changes db changes,
      .rowid db rowid]

def marks (a : Account) : List Mark :=
  .prepared a.db a.text ⟨okCode, some a.statement, a.taken⟩ ::
    .columns a.statement a.declared :: .total a.db a.total :: .rowid a.db a.rowid ::
    (rowMarks a.statement a.rows ++ a.fate.marks a.db a.statement)

def sql (a : Account) : String :=
  Text.trim (Text.decodeLossy (a.text.take (a.taken.getD a.text.length)))

/-- Nothing is known before the end. -/
def evidence (a : Account) : Option Evidence :=
  match a.fate with
  | .ended columns total changes rowid =>
    some ⟨a.sql, columns, a.total, total, changes, a.rowid, rowid⟩
  | _ => none

def stats (a : Account) : StatementStats := (a.evidence.map Evidence.stats).getD {}

def Fate.isOver : Fate → Bool
  | .running => false
  | _ => true

def Fate.isFailure : Fate → Bool
  | .failed .. => true
  | _ => false

theorem evidence_of_over {a : Account} (hover : a.fate.isOver = true)
    (hfine : a.fate.isFailure = false) : ∃ e, a.evidence = some e := by
  unfold evidence
  cases hfate : a.fate with
  | running => simp [hfate, Fate.isOver] at hover
  | failed code h => simp [hfate, Fate.isFailure] at hfine
  | ended => exact ⟨_, rfl⟩

/-- The second account may come after the first: once the statement is over nothing changes. -/
def LeadsTo (a a' : Account) : Prop := a.fate.isOver = true → a' = a

theorem LeadsTo.refl (a : Account) : a.LeadsTo a := fun _ => rfl

theorem LeadsTo.of_running {a : Account} (h : a.fate = .running) (a' : Account) : a.LeadsTo a' := by
  intro hover
  rw [h] at hover
  cases hover

/-- What a look for a row makes of the account, if it comes back. -/
structure Looked (found : Bool) (a a' : Account) : Prop where
  leads : a.LeadsTo a'
  ends : found = false → a'.fate.isOver = true
  failure : a'.fate.isFailure = true → a.fate.isFailure = true

/-- Only a statement that was seen to end tells anything. -/
theorem stats_of_unended {a : Account} (h : .stepped a.statement doneCode ∉ a.marks) :
    a.stats = {} := by
  unfold stats evidence
  cases hfate : a.fate with
  | running => rfl
  | failed => rfl
  | ended => simp [marks, hfate, Fate.marks] at h

theorem marks_row {a : Account} (h : a.fate = .running) (n : Nat) :
    { a with rows := a.rows ++ [n] }.marks =
      a.marks ++ [.stepped a.statement rowCode] ++ [.columns a.statement n] := by
  simp [marks, rowMarks, h, Fate.marks]

theorem marks_fate {a : Account} (h : a.fate = .running) (f : Fate) :
    { a with fate := f }.marks = a.marks ++ f.marks a.db a.statement := by
  simp [marks, h, Fate.marks]

theorem stats_of_running {a : Account} (h : a.fate = .running) : a.stats = {} := by
  unfold stats evidence
  rw [h]
  rfl

theorem Fate.marks_inj {db statement : Nat} {f f' : Fate}
    (h : f.marks db statement = f'.marks db statement) : f = f' := by
  cases f <;> cases f' <;> simp_all [marks]

theorem Fate.marks_ne_row {db statement : Nat} (f : Fate) (rest : List Mark) :
    f.marks db statement ≠ .stepped statement rowCode :: rest := by
  intro h
  cases f with
  | running => cases h
  | failed code hcode =>
    simp only [marks, List.cons.injEq, Mark.stepped.injEq, true_and] at h
    exact hcode.1 h.1
  | ended =>
    simp only [marks, List.cons.injEq, Mark.stepped.injEq, true_and] at h
    exact absurd h.1 (by decide)

theorem rows_inj {db statement : Nat} {rows rows' : List Nat} {f f' : Fate}
    (h : rowMarks statement rows ++ f.marks db statement =
      rowMarks statement rows' ++ f'.marks db statement) : rows = rows' ∧ f = f' := by
  induction rows generalizing rows' with
  | nil =>
    cases rows' with
    | nil => exact ⟨rfl, Fate.marks_inj h⟩
    | cons n rows' => exact absurd h (Fate.marks_ne_row f _)
  | cons n rows ih =>
    cases rows' with
    | nil => exact absurd h.symm (Fate.marks_ne_row f' _)
    | cons n' rows' =>
      simp only [rowMarks, List.flatMap_cons, List.cons_append, List.nil_append, List.cons.injEq,
        Mark.columns.injEq, true_and] at h
      obtain ⟨rfl, hfate⟩ := ih h.2
      exact ⟨by rw [h.1], hfate⟩

end Account

/-- Was a text handed over to be prepared? A statement begins with that. -/
def Library.Mark.isPreparation : Mark → Bool
  | .prepared .. => true
  | _ => false

theorem append_cons_inj {p : β → Bool} {xs ys s t : List β} {x y : β}
    (h : xs ++ x :: s = ys ++ y :: t) (hx : p x = true) (hy : p y = true)
    (hs : ∀ b ∈ s, p b = false) (ht : ∀ b ∈ t, p b = false) : x = y ∧ s = t := by
  rcases List.append_eq_append_iff.mp h with ⟨zs, -, hzs⟩ | ⟨zs, -, hzs⟩
  · cases zs with
    | nil => exact List.cons.inj hzs
    | cons z zs =>
      have hmem : y ∈ s := by simp [(List.cons.inj hzs).2]
      exact absurd hy (by simp [hs y hmem])
  · cases zs with
    | nil => exact ⟨(List.cons.inj hzs).1.symm, (List.cons.inj hzs).2.symm⟩
    | cons z zs =>
      have hmem : x ∈ t := by simp [(List.cons.inj hzs).2]
      exact absurd hx (by simp [ht x hmem])

namespace Account

theorem isPreparation_of_mem_tail (a : Account) : ∀ m ∈ a.marks.tail, m.isPreparation = false := by
  intro m hm
  simp only [marks, List.tail_cons, List.mem_cons, List.mem_append, rowMarks,
    List.mem_flatMap] at hm
  rcases hm with rfl | rfl | rfl | ⟨n, -, hm⟩ | hm
  · rfl
  · rfl
  · rfl
  · simp only [List.not_mem_nil, or_false] at hm
    rcases hm with rfl | rfl <;> rfl
  · cases hfate : a.fate with
    | running => simp [hfate, Fate.marks] at hm
    | failed code h =>
      simp only [hfate, Fate.marks, List.mem_singleton] at hm
      rw [hm]
      rfl
    | ended =>
      simp only [hfate, Fate.marks, List.mem_cons, List.not_mem_nil, or_false] at hm
      rcases hm with rfl | rfl | rfl | rfl | rfl <;> rfl

/-- The marks tell which statement was started last, and how far it has come. -/
theorem eq_of_marks {earlier earlier' : List Mark} {a a' : Account}
    (h : earlier ++ a.marks = earlier' ++ a'.marks) : a = a' := by
  obtain ⟨hfirst, hrest⟩ := append_cons_inj (p := Mark.isPreparation) h rfl rfl
    a.isPreparation_of_mem_tail a'.isPreparation_of_mem_tail
  cases a
  cases a'
  simp only [Mark.prepared.injEq, Prepared.mk.injEq, Option.some.injEq, true_and] at hfirst
  obtain ⟨rfl, rfl, rfl, rfl⟩ := hfirst
  simp only [List.cons.injEq, Mark.columns.injEq, Mark.total.injEq, Mark.rowid.injEq,
    true_and] at hrest
  obtain ⟨rfl, rfl, rfl, hrest⟩ := hrest
  obtain ⟨rfl, rfl⟩ := rows_inj hrest
  rfl

end Account

end DatabaseSession.Sqlite
