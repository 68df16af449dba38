import DatabaseSession.Proofs.Stepping
import DatabaseSession.Sqlite.Client

namespace DatabaseSession

namespace Backend

variable {ω : Type}

def gatherRows (fetchRow : Play ω (Option Row)) : Nat → Play ω (List Row)
  | 0 => Play.hang
  | patience + 1 => do
    match ← fetchRow with
    | none => return []
    | some row => return row :: (← gatherRows fetchRow patience)

/-- The current result set and all further ones. -/
def gatherSets (b : Backend ω) (rows : Nat) : Nat → Play ω (List (List Column × List Row))
  | 0 => Play.hang
  | patience + 1 => do
    let columns ← b.columns
    let set ← gatherRows b.fetchRow rows
    if ← b.nextResult then return (columns, set) :: (← gatherSets b rows patience)
    else return [(columns, set)]

def gather (b : Backend ω) (patience : Nat) (sql : String) (params : List Value) :
    Play ω (List (List Column × List Row)) := do
  b.execute sql params
  gatherSets b patience patience

end Backend

namespace Sqlite

namespace Client

open Play Library

variable {lam α : Type} {lib : Library lam} {db : Nat} {params : List Value}
  {script : Script lib db params} {segs : List Segment} {ids steps : List Nat}

def Reads (P : Cursor × lam → Prop) (w : Client × lam) : Prop :=
  ∃ k, w.1.cursor = some k ∧ P (k, w.2)

theorem onCursor_yields {P : Cursor × lam → Prop} {m : Cursor.Move lam α}
    {Q : α → Cursor × lam → Prop} (hm : ∀ w, P w → (m w).Yields Q) {w : Client × lam}
    (hw : Reads P w) : (onCursor m w).Yields fun a => Reads (Q a) := by
  obtain ⟨k, hk, hP⟩ := hw
  refine Turn.Yields.focus (F := fun _ => True) ?_ ?_ (hm _ ?_) trivial
  · exact fun _ _ _ => ⟨trivial, rfl⟩
  · exact fun a k w _ h => ⟨k.1, rfl, h⟩
  · dsimp only
    rw [hk]
    exact hP

theorem ifCursor_yields (a : α) {P : Cursor × lam → Prop} {m : Cursor.Move lam α}
    {Q : α → Cursor × lam → Prop} (hm : ∀ w, P w → (m w).Yields Q) {w : Client × lam}
    (hw : Reads P w) :
    ((Move.read >>= fun c => if c.cursor.isNone = true then pure a else onCursor m :
      Move lam α) w).Yields fun a => Reads (Q a) := by
  obtain ⟨k, hk, hP⟩ := hw
  rw [read_bind, if_neg (by simp [hk])]
  exact onCursor_yields hm ⟨k, hk, hP⟩

theorem fetchRow_yields {P : Cursor × lam → Prop} {Q : Option Row → Cursor × lam → Prop}
    (hm : ∀ w, P w → (Cursor.fetch lib w).Yields Q) {w : Client × lam} (hw : Reads P w) :
    (fetchRow lib w).Yields fun a => Reads (Q a) :=
  ifCursor_yields none hm hw

theorem nextResult_yields {P : Cursor × lam → Prop} {Q : Bool → Cursor × lam → Prop}
    (hm : ∀ w, P w → (Cursor.advance lib w).Yields Q) {w : Client × lam} (hw : Reads P w) :
    (nextResult lib w).Yields fun a => Reads (Q a) :=
  ifCursor_yields false hm hw

theorem dropCursor_finalizes {r : Option Running} {w : Client × (List Use × lam)}
    (hst : w.1.cursor.bind Cursor.statement = r.map Running.id)
    (hl : script.At segs r ids steps w.2) :
    ∃ l, dropCursor lib.logged w = .done (.ok ()) ({ w.1 with cursor := none }, l) ∧
      script.At segs none ids steps l := by
  unfold dropCursor
  rw [read_bind]
  dsimp only
  rw [hst]
  cases r with
  | none => exact ⟨w.2, rfl, hl⟩
  | some run =>
    obtain ⟨l, hcall, hat⟩ := hl.finalize
    dsimp only [Option.map]
    rw [call_bind, hcall]
    exact ⟨l, rfl, hat⟩

/-- The cursor begins at the first statement of the text. -/
theorem execute_yields {r : Option Running} {sql : String} {w : Client × (List Use × lam)}
    (hdb : w.1.db = some db) (hst : w.1.cursor.bind Cursor.statement = r.map Running.id)
    (hl : script.At segs r ids steps w.2) (hsql : Text.utf8 sql = segs.flatMap Segment.bytes) :
    (execute lib.logged sql params w).Yields fun _ => Reads fun w' =>
      ∃ more, Cursor.Arrives script segs ids steps more w' := by
  obtain ⟨l, hdrop, hat⟩ := dropCursor_finalizes hst hl
  have hclean : '\x00' ∉ sql.toList := by
    intro hzero
    have hmem := Text.zero_mem_utf8 hzero
    rw [hsql] at hmem
    obtain ⟨seg, -, hseg⟩ := List.mem_flatMap.mp hmem
    exact seg.clean hseg
  have hstart : ∀ w', w' = (({ db, text := Text.utf8 sql, params } : Cursor), l) →
      (Cursor.advance lib.logged w').Yields (Cursor.Arrives script segs ids steps) := by
    rintro w' rfl
    exact Cursor.advance_yields (r := none) ⟨rfl, rfl, hsql⟩ rfl hat
  unfold execute
  rw [read_bind, hdb]
  dsimp only
  rw [bind_of_done hdrop, if_neg (by simpa using hclean), update_bind]
  refine Turn.Ensures.andThen (onCursor_yields hstart ⟨_, rfl, rfl⟩) ?_
  rintro more w' ⟨k, hk, harrives⟩
  exact ⟨k, hk, more, harrives⟩

theorem gatherRows_of_none {P Q : Cursor × lam → Prop}
    (hm : ∀ w, P w → (Cursor.fetch lib w).Yields fun r w' => r = none ∧ Q w')
    {w : Client × lam} (hw : Reads P w) {n : Nat} (hn : 0 < n) :
    (Backend.gatherRows (fetchRow lib) n w).Yields fun rows w' => rows = [] ∧ Reads Q w' := by
  obtain ⟨n, rfl⟩ := Nat.exists_eq_succ_of_ne_zero (Nat.ne_of_gt hn)
  refine Turn.Ensures.andThen (fetchRow_yields hm hw) ?_
  rintro row w' ⟨k, hk, rfl, hQ⟩
  exact ⟨rfl, k, hk, hQ⟩

theorem gatherRows_yields {s : Statement} {id : Nat} {left : List (List Cell)} {ended : Bool}
    {w : Client × (List Use × lam)}
    (hw : Reads (Cursor.Offers script s id left ended segs ids steps) w) {n : Nat}
    (hn : left.length < n) :
    (Backend.gatherRows (fetchRow lib.logged) n w).Yields fun rows w' =>
      rows = left.map s.toRow ∧ Reads (Cursor.Offers script s id [] true segs ids steps) w' := by
  induction left generalizing ended w n with
  | nil => exact gatherRows_of_none (fun _ => Cursor.fetch_yields_none) hw hn
  | cons cells left ih =>
    obtain ⟨n, rfl⟩ := Nat.exists_eq_succ_of_ne_zero (Nat.ne_zero_of_lt hn)
    refine Turn.Ensures.andThen (fetchRow_yields (fun _ => Cursor.fetch_yields_some) hw) ?_
    rintro row w' ⟨k, hk, rfl, hoffers⟩
    refine Turn.Ensures.andThen (ih ⟨k, hk, hoffers⟩ (Nat.lt_of_succ_lt_succ hn)) ?_
    rintro rows w'' ⟨rfl, hreads⟩
    exact ⟨rfl, hreads⟩

/-- What comes of the pieces before the cursor: a result set for each statement, each prepared once
and stepped once more than it has rows. -/
structure Gathered (segs : List Segment) (ids steps : List Nat)
    (sets : List (List Column × List Row)) (uses : List Use) : Prop where
  sets : sets = Segment.results segs
  calls : ∃ more : List Nat, more.length = (Segment.statements segs).length ∧
    uses.filterMap Use.prepared? = ids ++ more ∧
    uses.filterMap Use.stepped? = steps ++ (more.zip (Segment.statements segs)).flatMap
      fun x => List.replicate (x.2.rows.length + 1) x.1

section

variable {s t : Statement} {rest : List Statement} {id : Nat}
  {sets : List (List Column × List Row)} {l : List Use × lam}

theorem Gathered.of_nil (hm : Segment.statements segs = []) (hl : script.At [] none ids steps l) :
    Gathered segs ids steps [([], [])] l.1 := by
  refine ⟨(Segment.results_of_nil hm).symm, [], by simp [hm], ?_, ?_⟩
  · simpa using hl.prepared
  · simpa using hl.stepped

theorem Gathered.of_singleton (hm : Segment.statements segs = [s])
    (hl : script.At [] none (ids ++ [id])
      (steps ++ List.replicate (s.rows.length + 1) id) l) :
    Gathered segs ids steps [s.results] l.1 := by
  refine ⟨(Segment.results_of_cons hm).symm, [id], by simp [hm], hl.prepared, ?_⟩
  simpa [hm] using hl.stepped

theorem Gathered.cons {segs' : List Segment} (hm : Segment.statements segs = s :: t :: rest)
    (hrest : Segment.statements segs' = t :: rest)
    (h : Gathered segs' (ids ++ [id]) (steps ++ List.replicate (s.rows.length + 1) id) sets l.1) :
    Gathered segs ids steps (s.results :: sets) l.1 := by
  obtain ⟨rfl, more, hlength, hprepared, hstepped⟩ := h
  refine ⟨?_, id :: more, ?_, ?_, ?_⟩
  · rw [Segment.results_of_cons hm, Segment.results_of_cons hrest]
    rfl
  · simp [hm, hlength, hrest]
  · rw [hprepared, List.append_assoc]
    rfl
  · rw [hstepped, hm, hrest, List.append_assoc]
    rfl

end

/-- Every result set is gathered from the cursor's first statement on. -/
theorem gatherSets_yields {rows n p : Nat} {w : Client × (List Use × lam)}
    (hw : Reads (fun w => ∃ more, Cursor.Arrives script segs ids steps more w) w)
    (hpos : 0 < rows) (hrows : ∀ s ∈ Segment.statements segs, s.rows.length < rows)
    (hn : (Segment.statements segs).length < n) :
    ((backend lib.logged p).gatherSets rows n w).Yields fun sets w' =>
      Gathered segs ids steps sets w'.2.1 := by
  -- Each round reads one statement to its end and goes on to the next.
  induction n generalizing segs ids steps w with
  | zero => exact absurd hn (Nat.not_lt_zero _)
  | succ n ih =>
    obtain ⟨k, hk, more, harrives⟩ := hw
    have hcolumns : (backend lib.logged p).columns w = .done (.ok k.columns) w := by
      change Turn.done (.ok ((w.1.cursor.map Cursor.columns).getD [])) w = _
      rw [hk]
      rfl
    rw [Backend.gatherSets, bind_of_done hcolumns]
    unfold Cursor.Arrives at harrives
    cases hm : Segment.statements segs with
    | nil =>
      rw [hm] at harrives
      obtain ⟨-, hspent⟩ := harrives
      refine Turn.Ensures.andThen
        (gatherRows_of_none (fun _ => Cursor.Spent.fetch_yields) ⟨k, hk, hspent⟩ hpos) ?_
      rintro _ w₁ ⟨rfl, hw₁⟩
      refine Turn.Ensures.andThen (nextResult_yields (fun _ => Cursor.Spent.advance_yields) hw₁) ?_
      rintro _ w₂ ⟨k₂, -, rfl, hspent₂⟩
      rw [hspent.columns]
      exact .of_nil hm hspent₂.stands
    | cons s rest =>
      rw [hm] at harrives hrows hn
      obtain ⟨-, id, segs', hrest, hoffers⟩ := harrives
      have hset : (k.columns, s.rows.map s.toRow) = s.results := by
        rw [hoffers.columns, Statement.results]
      refine Turn.Ensures.andThen (gatherRows_yields ⟨k, hk, hoffers⟩ (hrows s (by simp))) ?_
      rintro _ w₁ ⟨rfl, hw₁⟩
      refine Turn.Ensures.andThen (nextResult_yields (fun _ => Cursor.Offers.advance_yields) hw₁) ?_
      rintro more w₂ ⟨k₂, hk₂, harrives₂⟩
      have hnext := harrives₂
      unfold Cursor.Arrives at hnext
      rw [hrest] at hnext
      cases rest with
      | nil =>
        obtain ⟨rfl, hspent⟩ := hnext
        rw [hset]
        exact .of_singleton hm hspent.stands
      | cons t rest =>
        obtain ⟨rfl, -⟩ := hnext
        refine Turn.Ensures.andThen (ih ⟨k₂, hk₂, true, harrives₂⟩ ?_ ?_) ?_
        · rw [hrest]
          exact fun u hu => hrows u (by simp [hu])
        · rw [hrest]
          exact Nat.lt_of_succ_lt_succ hn
        · intro sets w₃ hgathered
          rw [hset]
          exact hgathered.cons hm hrest

/-- A client that is driven through a text yields a result set for each statement in it, in order
and with all rows, and steps each statement once more than it has rows. -/
theorem gather_results (script : Script lib db params) {r : Option Running}
    {w : Client × (List Use × lam)} {sql : String} {n p : Nat} (hdb : w.1.db = some db)
    (hst : w.1.cursor.bind Cursor.statement = r.map Running.id) (hholds : script.Holds segs r w.2.2)
    (hsql : Text.utf8 sql = segs.flatMap Segment.bytes)
    (hrows : ∀ s ∈ Segment.statements segs, s.rows.length < n)
    (hn : (Segment.statements segs).length < n) :
    ((backend lib.logged p).gather n sql params w).Yields fun sets w' =>
      Gathered segs (w.2.1.filterMap Use.prepared?) (w.2.1.filterMap Use.stepped?) sets w'.2.1 := by
  refine Turn.Ensures.andThen (execute_yields hdb hst ⟨hholds, rfl, rfl⟩ hsql) ?_
  exact fun _ w' hw' => gatherSets_yields hw' (Nat.zero_lt_of_lt hn) hrows hn

end Client

structure Tape where
  segs : List Segment
  run : Option Running := none
  next : Nat := 0

namespace Tape

open Client Library

variable {α : Type} {db : Nat} {params : List Value}

def ask (f : Running → Option α) (d : α) : StateM Tape α := fun t => ((t.run.bind f).getD d, t)

def prepare : StateM Tape Prepared := fun t =>
  match t.segs with
  | [] => (⟨okCode, none, none⟩, t)
  | seg :: segs => match seg.statement with
    | none => (⟨okCode, none, some seg.bytes.length⟩, { t with segs })
    | some s => (⟨okCode, some t.next, some seg.bytes.length⟩,
        { segs, run := some { id := t.next, statement := s, rest := s.rows }, next := t.next + 1 })

def step : Play Tape Int := fun t =>
  match t.run with
  | none => .done (.ok doneCode) t
  | some run => .done (.ok run.step.1) { t with run := some run.step.2 }

/-- A library that takes the pieces of its tape, whatever text it is given. Each statement has one
parameter. -/
def library : Library Tape where
  version := ""
  errorString := fun _ => ""
  openFile := fun _ _ => pure (okCode, some 0)
  close := fun _ => pure ()
  errorMessage := fun _ => pure []
  errorCode := fun _ => pure okCode
  busyTimeout := fun _ _ => pure ()
  prepare := fun _ _ => prepare
  finalize := fun _ t => ((), { t with run := none })
  parameterCount := fun _ => pure 1
  bind := fun _ _ _ => pure okCode
  step := fun _ => step
  columnCount := fun _ => ask (fun run => some run.statement.columns.length) 0
  columnName := fun _ i => ask (fun run => run.statement.columns[i]?.map Prod.fst) none
  declaredType := fun _ i => ask (fun run => run.statement.columns[i]?.map Prod.snd) none
  cell := fun _ i => ask (fun run => run.current[i]?) .other
  changes := fun _ => pure 0
  totalChanges := fun _ => pure 0
  lastRowid := fun _ => pure 0
  interrupt := fun _ => pure ()

theorem ask_eq {f : Running → Option α} {d a : α} {t : Tape} {run : Running}
    (hrun : t.run = some run) (ha : f run = some a) : ask f d t = (a, t) := by
  simp [ask, hrun, ha]

def script (hparams : 0 < params.length) : Script library db params where
  Holds segs run t := t.segs = segs ∧ t.run = run
  prepare := by
    rintro seg segs t ⟨hsegs, hrun⟩
    cases hs : seg.statement with
    | none =>
      have hprep : Tape.prepare t = (⟨okCode, none, some seg.bytes.length⟩, { t with segs }) := by
        simp only [Tape.prepare, hsegs, hs]
      exact ⟨_, _, hprep, rfl, rfl, rfl, rfl, hrun⟩
    | some s =>
      have hprep : Tape.prepare t = (⟨okCode, some t.next, some seg.bytes.length⟩,
          ⟨segs, some { id := t.next, statement := s, rest := s.rows }, t.next + 1⟩) := by
        simp only [Tape.prepare, hsegs, hs]
      exact ⟨_, _, hprep, rfl, rfl, _, rfl, rfl, rfl⟩
  parameterCount h := ⟨hparams, h⟩
  bind _ _ h := ⟨rfl, h⟩
  columnCount := by
    rintro segs run t ⟨hsegs, hrun⟩
    have hask : library.columnCount run.id t = (_, t) := ask_eq hrun rfl
    rw [hask]
    exact ⟨rfl, hsegs, hrun⟩
  columnName := by
    rintro segs run t i column ⟨hsegs, hrun⟩ hi
    have hask : library.columnName run.id i t = (_, t) := ask_eq hrun (by rw [hi]; rfl)
    rw [hask]
    exact ⟨rfl, hsegs, hrun⟩
  declaredType := by
    rintro segs run t i column ⟨hsegs, hrun⟩ hi
    have hask : library.declaredType run.id i t = (_, t) := ask_eq hrun (by rw [hi]; rfl)
    rw [hask]
    exact ⟨rfl, hsegs, hrun⟩
  step := by
    rintro segs run t ⟨hsegs, hrun⟩ -
    have hstep : library.step run.id t =
        .done (.ok run.step.1) { t with run := some run.step.2 } := by
      simp only [library, Tape.step, hrun]
    rw [hstep]
    exact ⟨rfl, hsegs, rfl⟩
  cell := by
    rintro segs run t i cell ⟨hsegs, hrun⟩ hi
    have hask : library.cell run.id i t = (cell, t) := ask_eq hrun hi
    rw [hask]
    exact ⟨rfl, hsegs, hrun⟩
  changes h := h
  totalChanges h := h
  lastRowid h := h
  finalize h := ⟨h.1, rfl⟩

def pieces : List Segment :=
  [{ bytes := Text.utf8 "SELECT a, b FROM t WHERE c < ?;"
     statement := some {
       columns := [(some (Text.utf8 "a"), some (Text.utf8 "TEXT")), (some (Text.utf8 "b"), none)]
       rows := [[.text (some (Text.utf8 "x")), .int 1], [.other, .text (some (Text.utf8 "y"))]]
       fits := by decide }
     nonempty := by decide +kernel
     clean := by decide +kernel },
   { bytes := Text.utf8 " -- the rest;\n"
     statement := none
     nonempty := by decide +kernel
     clean := by decide +kernel },
   { bytes := Text.utf8 "DELETE FROM t WHERE c < ?"
     statement := some { columns := [], rows := [], fits := nofun }
     nonempty := by decide +kernel
     clean := by decide +kernel }]

def text : String :=
  "SELECT a, b FROM t WHERE c < ?; -- the rest;\nDELETE FROM t WHERE c < ?"

def connected : Client × (List Use × Tape) := ({ db := some 0 }, ([], { segs := pieces }))

theorem gather_results_tape :
    ((backend library.logged 0).gather 3 text [.int 7] connected).Yields fun sets w' =>
      sets = [([⟨"a", "TEXT", none⟩, ⟨"b", "INTEGER", none⟩],
          [⟨[⟨"a", "TEXT", none⟩, ⟨"b", "INTEGER", none⟩], [.text "x", .int 1]⟩,
            ⟨[⟨"a", "TEXT", none⟩, ⟨"b", "INTEGER", none⟩], [.null, .text "y"]⟩]),
        ([], [])] ∧
      ∃ i j, w'.2.1.filterMap Use.stepped? = [i, i, i, j] := by
  have hholds : (script (by decide : 0 < [Value.int 7].length) : Script library 0 _).Holds pieces
      none connected.2.2 := ⟨rfl, rfl⟩
  have hsql : Text.utf8 text = pieces.flatMap Segment.bytes := by decide +kernel
  have hrows : ∀ s ∈ Segment.statements pieces, s.rows.length < 3 := by decide +kernel
  have hn : (Segment.statements pieces).length < 3 := by decide +kernel
  -- The arguments are given in full: looking for them would run the whole text.
  have hgather :=
    @gather_results _ _ _ _ pieces _ none connected text 3 0 rfl rfl hholds hsql hrows hn
  refine Turn.Yields.mono ?_ hgather
  rintro sets w' ⟨rfl, more, hlength, -, hstepped⟩
  match more, hlength, hstepped with
  | [i, j], _, hstepped => exact ⟨by decide +kernel, i, j, hstepped⟩

end Tape
end Sqlite
end DatabaseSession
