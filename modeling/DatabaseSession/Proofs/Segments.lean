import DatabaseSession.Proofs.Plays
import DatabaseSession.Proofs.Custody
import DatabaseSession.Sqlite.Cursor

namespace DatabaseSession.Sqlite

open Library

variable {lam α : Type}

/-- A statement as the library runs it: its columns, each with a name and a declared type, and its
rows. -/
structure Statement where
  columns : List (Option (List UInt8) × Option (List UInt8))
  rows : List (List Cell)
  fits : ∀ row ∈ rows, row.length = columns.length

namespace Statement

/-- The type of a column: the declared one, or else the storage class in the first row. -/
def typeName (declared : String) (first : Option Cell) : String :=
  if declared = "" then (first.map fun cell => cell.toValue.storageClass).getD "" else declared

def columnList (s : Statement) : List Column :=
  s.columns.mapIdx fun i column =>
    { name := (column.1.map terminatedText).getD ""
      typeName := typeName ((column.2.map terminatedText).getD "")
        (s.rows.head?.bind fun row => row[i]?) }

def toRow (s : Statement) (cells : List Cell) : Row := ⟨s.columnList, cells.map Cell.toValue⟩

def results (s : Statement) : List Column × List Row := (s.columnList, s.rows.map s.toRow)

end Statement

/-- A piece of a text, with a statement in it or none. The library's texts end at a zero byte, so
none is in a piece. -/
structure Segment where
  bytes : List UInt8
  statement : Option Statement
  nonempty : bytes ≠ []
  clean : 0 ∉ bytes

namespace Segment

def statements (segs : List Segment) : List Statement := segs.filterMap Segment.statement

/-- The result sets of a text. There is an empty one if it holds no statement. -/
def results (segs : List Segment) : List (List Column × List Row) :=
  match statements segs with
  | [] => [([], [])]
  | s :: more => (s :: more).map Statement.results

theorem results_of_nil {segs : List Segment} (h : statements segs = []) :
    results segs = [([], [])] := by
  rw [results, h]

theorem results_of_cons {segs : List Segment} {s : Statement} {more : List Statement}
    (h : statements segs = s :: more) : results segs = (s :: more).map Statement.results := by
  rw [results, h]

end Segment

structure Running where
  id : Nat
  statement : Statement
  /-- The row stepped to last. -/
  current : List Cell := []
  rest : List (List Cell)
  ended : Bool := false

/-- What a step answers, and what is being run after it. -/
def Running.step (run : Running) : Int × Running :=
  match run.rest with
  | [] => (doneCode, { run with ended := true })
  | row :: rest => (rowCode, { run with current := row, rest })

theorem Running.step_snd {run : Running} (h : run.ended = false) :
    run.step.2 = { run with
      current := run.rest.head?.getD run.current
      rest := run.rest.tail
      ended := run.rest.isEmpty } := by
  unfold Running.step
  cases run.rest <;> simp [h]

/-- A library that takes a text piece by piece, and whose calls succeed. `Holds segs run` tells of a
state that these pieces are left, and that this statement is being run. -/
structure Script (lib : Library lam) (db : Nat) (params : List Value) where
  Holds : List Segment → Option Running → lam → Prop
  prepare : ∀ {seg segs l}, Holds (seg :: segs) none l →
    ∃ r l', lib.prepare db ((seg :: segs).flatMap Segment.bytes) l = (r, l') ∧ r.code = okCode ∧
      r.taken.getD ((seg :: segs).flatMap Segment.bytes).length = seg.bytes.length ∧
      match seg.statement with
      | none => r.statement = none ∧ Holds segs none l'
      | some s => ∃ id, r.statement = some id ∧
          Holds segs (some { id, statement := s, rest := s.rows }) l'
  parameterCount : ∀ {segs run l}, Holds segs (some run) l →
    (lib.parameterCount run.id l).1 ≤ params.length ∧
      Holds segs (some run) (lib.parameterCount run.id l).2
  bind : ∀ {segs run l} index binding, Holds segs (some run) l →
    (lib.bind run.id index binding l).1 = okCode ∧
      Holds segs (some run) (lib.bind run.id index binding l).2
  columnCount : ∀ {segs run l}, Holds segs (some run) l →
    (lib.columnCount run.id l).1 = run.statement.columns.length ∧
      Holds segs (some run) (lib.columnCount run.id l).2
  columnName : ∀ {segs run l i column}, Holds segs (some run) l →
    run.statement.columns[i]? = some column → (lib.columnName run.id i l).1 = column.1 ∧
      Holds segs (some run) (lib.columnName run.id i l).2
  declaredType : ∀ {segs run l i column}, Holds segs (some run) l →
    run.statement.columns[i]? = some column → (lib.declaredType run.id i l).1 = column.2 ∧
      Holds segs (some run) (lib.declaredType run.id i l).2
  step : ∀ {segs run l}, Holds segs (some run) l → run.ended = false →
    (lib.step run.id l).Yields fun code l' =>
      code = run.step.1 ∧ Holds segs (some run.step.2) l'
  cell : ∀ {segs run l i cell}, Holds segs (some run) l → run.current[i]? = some cell →
    (lib.cell run.id i l).1 = cell ∧ Holds segs (some run) (lib.cell run.id i l).2
  changes : ∀ {segs run l}, Holds segs run l → Holds segs run (lib.changes db l).2
  totalChanges : ∀ {segs run l}, Holds segs run l → Holds segs run (lib.totalChanges db l).2
  lastRowid : ∀ {segs run l}, Holds segs run l → Holds segs run (lib.lastRowid db l).2
  finalize : ∀ {segs run l}, Holds segs (some run) l →
    Holds segs none (lib.finalize run.id l).2

/-- The statement that the call steps. -/
def Library.Use.stepped? : Use → Option Nat
  | .step statement => some statement
  | _ => none

namespace Script

variable {lib : Library lam} {db : Nat} {params : List Value} {script : Script lib db params}

/-- The script stands there, and by the log these statements were prepared and stepped so far. -/
structure At (script : Script lib db params) (segs : List Segment) (run : Option Running)
    (ids steps : List Nat) (l : List Use × lam) : Prop where
  holds : script.Holds segs run l.2
  prepared : l.1.filterMap Use.prepared? = ids
  stepped : l.1.filterMap Use.stepped? = steps

variable {segs segs' : List Segment} {run run' : Option Running} {ids steps : List Nat}
  {l : List Use × lam}

theorem At.noted (h : script.At segs run ids steps l) (u : α → Use) {f : StateM lam α} {a : α}
    (ha : (f l.2).1 = a) (hholds : script.Holds segs' run' (f l.2).2)
    (hprep : (u a).prepared? = none) (hstep : (u a).stepped? = none) :
    ∃ l', Library.noted u f l = (a, l') ∧ script.At segs' run' ids steps l' := by
  subst ha
  refine ⟨_, rfl, hholds, ?_, ?_⟩
  · simp [hprep, h.prepared]
  · simp [hstep, h.stepped]

/-- The next piece is prepared, and its statement is run from then on. -/
theorem At.prepare {seg : Segment} (h : script.At (seg :: segs) none ids steps l) :
    ∃ r l', lib.logged.prepare db ((seg :: segs).flatMap Segment.bytes) l = (r, l') ∧
      r.code = okCode ∧
      r.taken.getD ((seg :: segs).flatMap Segment.bytes).length = seg.bytes.length ∧
      match seg.statement with
      | none => r.statement = none ∧ script.At segs none ids steps l'
      | some s => ∃ id, r.statement = some id ∧
          script.At segs (some { id, statement := s, rest := s.rows }) (ids ++ [id]) steps l' := by
  obtain ⟨r, l', hcall, hcode, htaken, hcase⟩ := script.prepare h.holds
  refine ⟨r, (l.1 ++ [Use.prepare db ((seg :: segs).flatMap Segment.bytes) r], l'), ?_, hcode,
    htaken, ?_⟩
  · simp only [Library.logged, Library.noted, hcall]
  · cases hs : seg.statement with
    | none =>
      rw [hs] at hcase
      obtain ⟨hnone, hholds⟩ := hcase
      exact ⟨hnone, hholds, by simp [h.prepared, Use.prepared?, hnone],
        by simp [h.stepped, Use.stepped?]⟩
    | some s =>
      rw [hs] at hcase
      obtain ⟨id, hsome, hholds⟩ := hcase
      exact ⟨id, hsome, hholds, by simp [h.prepared, Use.prepared?, hsome],
        by simp [h.stepped, Use.stepped?]⟩

theorem At.mapM {f : Nat → StateM (List Use × lam) α} {g : Nat → α} {is : List Nat}
    (hf : ∀ i ∈ is, ∀ l, script.At segs run ids steps l →
      ∃ l', f i l = (g i, l') ∧ script.At segs run ids steps l')
    (h : script.At segs run ids steps l) :
    ∃ l', is.mapM f l = (is.map g, l') ∧ script.At segs run ids steps l' := by
  induction is generalizing l with
  | nil => exact ⟨l, rfl, h⟩
  | cons i is ih =>
    obtain ⟨l₁, hfirst, hat₁⟩ := hf i (by simp) l h
    obtain ⟨l₂, hrest, hat₂⟩ := ih (fun j hj => hf j (by simp [hj])) hat₁
    refine ⟨l₂, ?_, hat₂⟩
    rw [List.mapM_cons]
    change (((f i l).1 :: (is.mapM f (f i l).2).1, (is.mapM f (f i l).2).2) : List α × _) = _
    rw [hfirst, hrest, List.map_cons]

section

variable {run : Running}

theorem At.parameterCount (h : script.At segs (some run) ids steps l) :
    ∃ n l', lib.logged.parameterCount run.id l = (n, l') ∧ n ≤ params.length ∧
      script.At segs (some run) ids steps l' := by
  obtain ⟨hle, hholds⟩ := script.parameterCount h.holds
  obtain ⟨l', hcall, hat⟩ := h.noted (fun _ => .parameterCount run.id) rfl hholds rfl rfl
  exact ⟨_, l', hcall, hle, hat⟩

theorem At.bind (h : script.At segs (some run) ids steps l) (index : Nat) (binding : Binding) :
    ∃ l', lib.logged.bind run.id index binding l = (okCode, l') ∧
      script.At segs (some run) ids steps l' := by
  obtain ⟨hok, hholds⟩ := script.bind index binding h.holds
  exact h.noted (fun _ => .bind run.id index binding) hok hholds rfl rfl

theorem At.columnCount (h : script.At segs (some run) ids steps l) :
    ∃ l', lib.logged.columnCount run.id l = (run.statement.columns.length, l') ∧
      script.At segs (some run) ids steps l' := by
  obtain ⟨hcount, hholds⟩ := script.columnCount h.holds
  exact h.noted (fun _ => .columnCount run.id) hcount hholds rfl rfl

theorem At.columnName (h : script.At segs (some run) ids steps l) {i : Nat}
    {column : Option (List UInt8) × Option (List UInt8)}
    (hi : run.statement.columns[i]? = some column) :
    ∃ l', lib.logged.columnName run.id i l = (column.1, l') ∧
      script.At segs (some run) ids steps l' := by
  obtain ⟨hname, hholds⟩ := script.columnName h.holds hi
  exact h.noted (fun _ => .columnName run.id i) hname hholds rfl rfl

theorem At.declaredType (h : script.At segs (some run) ids steps l) {i : Nat}
    {column : Option (List UInt8) × Option (List UInt8)}
    (hi : run.statement.columns[i]? = some column) :
    ∃ l', lib.logged.declaredType run.id i l = (column.2, l') ∧
      script.At segs (some run) ids steps l' := by
  obtain ⟨htype, hholds⟩ := script.declaredType h.holds hi
  exact h.noted (fun _ => .declaredType run.id i) htype hholds rfl rfl

theorem At.cell (h : script.At segs (some run) ids steps l) {i : Nat} {cell : Cell}
    (hi : run.current[i]? = some cell) :
    ∃ l', lib.logged.cell run.id i l = (cell, l') ∧ script.At segs (some run) ids steps l' := by
  obtain ⟨hcell, hholds⟩ := script.cell h.holds hi
  exact h.noted (fun _ => .cell run.id i) hcell hholds rfl rfl

theorem At.finalize (h : script.At segs (some run) ids steps l) :
    ∃ l', lib.logged.finalize run.id l = ((), l') ∧ script.At segs none ids steps l' :=
  h.noted (fun _ => .finalize run.id) rfl (script.finalize h.holds) rfl rfl

theorem At.step (h : script.At segs (some run) ids steps l) (hrun : run.ended = false) :
    (lib.logged.step run.id l).Yields fun code l' =>
      code = run.step.1 ∧ script.At segs (some run.step.2) ids (steps ++ [run.id]) l' := by
  change Turn.Yields _ (Turn.focus Prod.snd (fun w kw => (kw.1, w)) (lib.step run.id l.2)
    (l.1 ++ [Use.step run.id], l.2))
  refine Turn.Yields.focus (F := fun w => w.1 = l.1 ++ [Use.step run.id]) ?_ ?_
    (script.step h.holds hrun) rfl
  · exact fun _ _ hw => ⟨hw, rfl⟩
  · rintro code x w hw ⟨hcode, hholds⟩
    refine ⟨hcode, hholds, ?_, ?_⟩
    · simp [hw, h.prepared, Use.prepared?]
    · simp [hw, h.stepped, Use.stepped?]

end

theorem At.changes (h : script.At segs run ids steps l) :
    ∃ n l', lib.logged.changes db l = (n, l') ∧ script.At segs run ids steps l' :=
  ⟨_, h.noted (fun _ => .changes db) rfl (script.changes h.holds) rfl rfl⟩

theorem At.totalChanges (h : script.At segs run ids steps l) :
    ∃ n l', lib.logged.totalChanges db l = (n, l') ∧ script.At segs run ids steps l' :=
  ⟨_, h.noted (fun _ => .totalChanges db) rfl (script.totalChanges h.holds) rfl rfl⟩

theorem At.lastRowid (h : script.At segs run ids steps l) :
    ∃ n l', lib.logged.lastRowid db l = (n, l') ∧ script.At segs run ids steps l' :=
  ⟨_, h.noted (fun _ => .lastRowid db) rfl (script.lastRowid h.holds) rfl rfl⟩

end Script
end DatabaseSession.Sqlite
