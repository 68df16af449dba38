import DatabaseSession.Proofs.Segments

namespace DatabaseSession.Sqlite

open Play Library

variable {lam α : Type} {lib : Library lam} {db : Nat} {params : List Value}
  {script : Script lib db params} {segs : List Segment} {ids steps : List Nat}

theorem map_range_getElem? {β : Type} (xs : List β) (f : β → α) (d : α) :
    (List.range xs.length).map (fun i => (xs[i]?.map f).getD d) = xs.map f := by
  apply List.ext_getElem
  · simp
  · intro i hi _
    simp at hi
    simp [hi]

namespace Statement

def column (c : Option (List UInt8) × Option (List UInt8)) : Column :=
  { name := (c.1.map terminatedText).getD "", typeName := (c.2.map terminatedText).getD "" }

theorem inferTypes_eq (cs : List Column) (vs : List Value) :
    Cursor.inferTypes cs vs = cs.mapIdx fun i c => if c.typeName = "" then
      { c with typeName := (vs[i]?.map Value.storageClass).getD "" } else c := by
  induction cs generalizing vs with
  | nil => cases vs <;> rfl
  | cons c cs ih =>
    cases vs with
    | nil =>
      have hsame : ∀ c : Column,
          (if c.typeName = "" then { c with typeName := "" } else c) = c := by
        intro c
        split
        · next h => rw [← h]
        · rfl
      simp [Cursor.inferTypes, hsame, List.mapIdx_eq_zipIdx_map]
    | cons v vs =>
      rw [Cursor.inferTypes, ih, List.mapIdx_cons]
      rfl

theorem inferTypes_columns (s : Statement) :
    Cursor.inferTypes (s.columns.map column) ((s.rows.head?.map (List.map Cell.toValue)).getD []) =
      s.columnList := by
  rw [inferTypes_eq]
  apply List.ext_getElem
  · simp [columnList]
  · intro i _ _
    have hcell : (((s.rows.head?.map (List.map Cell.toValue)).getD [])[i]?).map Value.storageClass =
        (s.rows.head?.bind fun row => row[i]?).map fun cell => cell.toValue.storageClass := by
      cases s.rows.head? <;> simp [Function.comp_def]
    simp only [List.getElem_mapIdx, List.getElem_map, columnList, column, typeName, hcell]
    split <;> simp_all

end Statement

namespace Cursor

/-- The cursor has these pieces of its text before it. -/
structure Tracks (db : Nat) (params : List Value) (segs : List Segment) (k : Cursor) : Prop where
  handle : k.db = db
  params : k.params = params
  text : k.text.drop k.offset = segs.flatMap Segment.bytes

theorem Tracks.of_same {k k' : Cursor} (h : Tracks db params segs k) (hdb : k'.db = k.db)
    (hparams : k'.params = k.params) (htext : k'.text = k.text) (hoffset : k'.offset = k.offset) :
    Tracks db params segs k' :=
  ⟨hdb.trans h.handle, hparams.trans h.params, by rw [htext, hoffset, h.text]⟩

theorem Tracks.length {seg : Segment} {k : Cursor} (h : Tracks db params (seg :: segs) k) :
    k.text.length - k.offset = seg.bytes.length + (segs.flatMap Segment.bytes).length := by
  rw [← List.length_drop, h.text, List.flatMap_cons, List.length_append]

theorem Tracks.next {seg : Segment} {k : Cursor} (h : Tracks db params (seg :: segs) k)
    {taken : Nat} (htaken : taken = seg.bytes.length) :
    Tracks db params segs { k with offset := min (k.offset + max taken 1) k.text.length } := by
  have hpos := List.length_pos_iff.mpr seg.nonempty
  have hlength := h.length
  have hoffset : min (k.offset + max taken 1) k.text.length = k.offset + seg.bytes.length := by
    omega
  refine ⟨h.handle, h.params, ?_⟩
  change k.text.drop (min (k.offset + max taken 1) k.text.length) = _
  rw [hoffset, ← List.drop_drop, h.text, List.flatMap_cons, List.drop_left]

theorem call_bind_of_eq {β : Type} {f : StateM lam β} {g : β → Move lam α} {k : Cursor} {l l' : lam}
    {b : β} (h : f l = (b, l')) : (call f >>= g) (k, l) = g b (k, l') := by
  rw [call_bind, h]

theorem nextStatement_succ {lib : Library lam} (left : Nat) {k : Cursor} {l l' : lam}
    {r : Prepared} (hmore : k.offset < k.text.length)
    (hprep : lib.prepare k.db (k.text.drop k.offset) l = (r, l')) (hcode : r.code = okCode) :
    ∃ sql, nextStatement lib (left + 1) (k, l) =
      let o := min (k.offset + max (r.taken.getD (k.text.drop k.offset).length) 1) k.text.length
      match r.statement with
      | none => nextStatement lib left ({ k with offset := o }, l')
      | some id => .done (.ok true) ({ k with offset := o, statement := some id, sql }, l') := by
  refine ⟨Text.trim (Text.decodeLossy ((k.text.drop k.offset).take
    (r.taken.getD (k.text.drop k.offset).length))), ?_⟩
  rw [nextStatement, read_bind, if_neg (by simpa using hmore)]
  dsimp only
  rw [call_bind_of_eq hprep, if_neg (by simp [hcode]), update_bind]
  cases r.statement <;> rfl

/-- Pieces without a statement are passed over; the first statement after them is prepared. -/
theorem nextStatement_done {k : Cursor} {l : List Use × lam} (hk : Tracks db params segs k)
    (hl : script.At segs none ids steps l) {left : Nat} (hleft : k.text.length - k.offset ≤ left) :
    (Segment.statements segs = [] ∧ ∃ o l', nextStatement lib.logged left (k, l) =
        .done (.ok false) ({ k with offset := o }, l') ∧
      Tracks db params [] { k with offset := o } ∧ script.At [] none ids steps l') ∨
    ∃ s more segs' id o sql l', Segment.statements segs = s :: more ∧
      Segment.statements segs' = more ∧ nextStatement lib.logged left (k, l) =
        .done (.ok true) ({ k with offset := o, statement := some id, sql }, l') ∧
      Tracks db params segs' { k with offset := o, statement := some id, sql } ∧
      script.At segs' (some { id, statement := s, rest := s.rows }) (ids ++ [id]) steps l' := by
  -- Each round takes one piece, of one byte at least, so the bytes left bound the rounds.
  induction segs generalizing left k l with
  | nil =>
    have hend : k.text.length ≤ k.offset := List.drop_eq_nil_iff.mp hk.text
    refine .inl ⟨rfl, k.offset, l, ?_, hk, hl⟩
    cases left with
    | zero => rfl
    | succ left =>
      rw [nextStatement, read_bind, if_pos hend]
      rfl
  | cons seg segs ih =>
    have hpos := List.length_pos_iff.mpr seg.nonempty
    have hlength := hk.length
    have hmore : k.offset < k.text.length := by omega
    obtain ⟨left, rfl⟩ : ∃ n, left = n + 1 := ⟨left - 1, by omega⟩
    obtain ⟨r, l', hprep, hcode, htaken, hcase⟩ := hl.prepare
    rw [← hk.text, ← hk.handle] at hprep
    rw [← hk.text] at htaken
    have htracks := hk.next htaken
    obtain ⟨sql, hgoes⟩ := nextStatement_succ left hmore hprep hcode
    have hleft' : k.text.length - min (k.offset +
        max (r.taken.getD (k.text.drop k.offset).length) 1) k.text.length ≤ left := by omega
    cases hs : seg.statement with
    | none =>
      rw [hs] at hcase
      obtain ⟨hnone, hat⟩ := hcase
      have hsame : Segment.statements (seg :: segs) = Segment.statements segs := by
        simp [Segment.statements, hs]
      rw [hnone] at hgoes
      rw [hgoes, hsame]
      exact ih htracks hat hleft'
    | some s =>
      rw [hs] at hcase
      obtain ⟨id, hsome, hat⟩ := hcase
      rw [hsome] at hgoes
      exact .inr ⟨s, Segment.statements segs, segs, id, _, sql, _, by simp [Segment.statements, hs],
        rfl, hgoes, htracks.of_same rfl rfl rfl rfl, hat⟩

variable {run : Running} {k : Cursor} {l : List Use × lam}

theorem bindFrom_done (hl : script.At segs (some run) ids steps l) (index : Nat)
    (values : List Value) : ∃ l', bindFrom lib.logged run.id index values (k, l) =
      .done (.ok ()) (k, l') ∧ script.At segs (some run) ids steps l' := by
  induction values generalizing index l with
  | nil => exact ⟨l, rfl, hl⟩
  | cons value values ih =>
    obtain ⟨l₁, hbind, hat⟩ := hl.bind index (.ofValue value)
    rw [bindFrom, call_bind_of_eq hbind, if_neg (by simp)]
    exact ih hat (index + 1)

theorem readColumns_eq (hl : script.At segs (some run) ids steps l) :
    ∃ l', readColumns lib.logged run.id run.statement.columns.length l =
        (run.statement.columns.map Statement.column, l') ∧
      script.At segs (some run) ids steps l' := by
  rw [← map_range_getElem? run.statement.columns Statement.column default]
  refine Script.At.mapM (fun i hi l hl => ?_) hl
  have hlt : i < run.statement.columns.length := by simpa using hi
  have hcolumn : run.statement.columns[i]? = some run.statement.columns[i] := by simp [hlt]
  obtain ⟨l₁, hname, hat₁⟩ := hl.columnName hcolumn
  obtain ⟨l₂, htype, hat₂⟩ := hat₁.declaredType hcolumn
  refine ⟨l₂, ?_, hat₂⟩
  change ((⟨((lib.logged.columnName run.id i l).1.map terminatedText).getD "",
    ((lib.logged.declaredType run.id i (lib.logged.columnName run.id i l).2).1.map
      terminatedText).getD "", none⟩ : Column),
    (lib.logged.declaredType run.id i (lib.logged.columnName run.id i l).2).2) = _
  rw [hname, htype, hcolumn]
  rfl

theorem cells_eq (hl : script.At segs (some run) ids steps l)
    (hfits : run.current.length = run.statement.columns.length) :
    ∃ l', (List.range run.statement.columns.length).mapM (lib.logged.cell run.id) l =
        (run.current, l') ∧ script.At segs (some run) ids steps l' := by
  have hread : run.current = (List.range run.statement.columns.length).map
      fun i => (run.current[i]?.map fun cell => cell).getD .other := by
    rw [← hfits, map_range_getElem? run.current (fun cell => cell) .other, List.map_id'']
    exact fun _ => rfl
  rw [hread]
  refine Script.At.mapM (fun i hi l hl => ?_) hl
  have hlt : i < run.current.length := by simpa [hfits] using hi
  have hcell : run.current[i]? = some run.current[i] := by simp [hlt]
  rw [hcell]
  exact hl.cell hcell

theorem countChanges_done (hk : k.db = db) (hl : script.At segs (some run) ids steps l) :
    ∃ stats l', countChanges lib.logged run.id (k, l) = .done (.ok ()) ({ k with stats }, l') ∧
      script.At segs (some run) ids steps l' := by
  obtain ⟨l₁, hcount, hat₁⟩ := hl.columnCount
  obtain ⟨total, l₂, htotal, hat₂⟩ := hat₁.totalChanges
  obtain ⟨changes, l₃, hchanges, hat₃⟩ := hat₂.changes
  obtain ⟨rowid, l₄, hrowid, hat₄⟩ := hat₃.lastRowid
  subst hk
  rw [countChanges, read_bind, call_bind_of_eq hcount, call_bind_of_eq htotal,
    call_bind_of_eq hchanges, call_bind_of_eq hrowid]
  exact ⟨_, l₄, rfl, hat₄⟩

theorem step_yields (hl : script.At segs (some run) ids steps l) (hrun : run.ended = false) :
    Turn.Yields
      (fun code w' => w'.1 = k ∧ code = run.step.1 ∧
        script.At segs (some run.step.2) ids (steps ++ [run.id]) w'.2)
      ((Play.beside (lib.logged.step run.id) : Move _ Int) (k, l)) := by
  refine Turn.Yields.focus (F := fun w => w.1 = k) ?_ ?_ (hl.step hrun) rfl
  · exact fun _ _ hw => ⟨hw, rfl⟩
  · exact fun _ _ _ hw h => ⟨hw, h⟩

theorem stepRow_yields (hk : k.db = db) (hst : k.statement = some run.id)
    (hmore : k.exhausted = false) (hl : script.At segs (some run) ids steps l)
    (hrun : run.ended = false)
    (hfits : ∀ row ∈ run.rest, row.length = run.statement.columns.length) :
    (stepRow lib.logged (k, l)).Yields fun cells w' =>
      cells = run.rest.head?.map (List.map Cell.toValue) ∧
      (∃ stats, w'.1 = { k with exhausted := run.step.2.ended, stats }) ∧
      script.At segs (some run.step.2) ids (steps ++ [run.id]) w'.2 := by
  unfold stepRow
  rw [read_bind]
  dsimp only
  rw [hmore, hst]
  refine (step_yields hl hrun).andThen ?_
  rintro code ⟨k', l'⟩ ⟨rfl, rfl, hat⟩
  cases hrest : run.rest with
  | nil =>
    have hstep : run.step = (doneCode, { run with ended := true }) := by simp [Running.step, hrest]
    rw [hstep] at hat ⊢
    obtain ⟨stats, l₂, hcount, hat₂⟩ :=
      countChanges_done (k := { k' with exhausted := true }) hk hat
    dsimp only
    rw [if_neg (by decide), update_bind, if_pos rfl, bind_of_done hcount]
    exact ⟨rfl, ⟨stats, by rw [← hst]⟩, hat₂⟩
  | cons row rest =>
    have hstep : run.step = (rowCode, { run with current := row, rest }) := by
      simp [Running.step, hrest]
    rw [hstep] at hat ⊢
    obtain ⟨l₁, hcount, hat₁⟩ := hat.columnCount
    obtain ⟨l₂, hcells, hat₂⟩ := cells_eq hat₁ (hfits row (by simp [hrest]))
    dsimp only
    rw [if_pos rfl, call_bind_of_eq hcount, call_bind_of_eq hcells]
    exact ⟨rfl, ⟨k'.stats, by rw [← hst, hrun, ← hmore]⟩, hat₂⟩

/-- The cursor has these rows of the statement left. It may have read one of them early, and knows
whether a step has found no more. The steps are those before this statement. -/
structure Offers (script : Script lib db params) (s : Statement) (id : Nat)
    (left : List (List Cell)) (ended : Bool) (segs : List Segment) (ids steps : List Nat)
    (w : Cursor × (List Use × lam)) : Prop where
  tracks : Tracks db params segs w.1
  statement : w.1.statement = some id
  columns : w.1.columns = s.columnList
  exhausted : w.1.exhausted = ended
  ready : ∃ (peek : Option (List Cell)) (current : List Cell) (rest : List (List Cell)) (n : Nat),
    w.1.peeked = peek.map s.toRow ∧ left = peek.toList ++ rest ∧ rest <:+ s.rows ∧
    (ended = true → left = []) ∧ n + rest.length = s.rows.length + ended.toNat ∧
    script.At segs (some ⟨id, s, current, rest, ended⟩) ids (steps ++ List.replicate n id) w.2

theorem start_yields (hk : Tracks db params segs k) (hst : k.statement = some run.id)
    (hl : script.At segs (some run) ids steps l) (hfresh : run.rest = run.statement.rows)
    (hrun : run.ended = false) :
    (start lib.logged run.id (k, l)).Yields fun _ w' => Offers script run.statement run.id
      run.statement.rows run.statement.rows.isEmpty segs ids steps w' := by
  -- None of the calls before the first step moves the script.
  obtain ⟨needed, l₁, hneeded, hle, hat₁⟩ := hl.parameterCount
  obtain ⟨l₂, hbind, hat₂⟩ := bindFrom_done (k := k) hat₁ 1 (k.params.take needed)
  obtain ⟨l₃, hcount, hat₃⟩ := hat₂.columnCount
  obtain ⟨l₄, hcolumns, hat₄⟩ := readColumns_eq hat₃
  obtain ⟨total, l₅, htotal, hat₅⟩ := hat₄.totalChanges
  obtain ⟨rowid, l₆, hrowid, hat₆⟩ := hat₅.lastRowid
  unfold start
  rw [read_bind, call_bind_of_eq hneeded, if_neg (by rw [hk.params]; exact Nat.not_lt.mpr hle)]
  dsimp only
  rw [bind_of_done hbind, call_bind_of_eq hcount, call_bind_of_eq hcolumns, hk.handle,
    call_bind_of_eq htotal, call_bind_of_eq hrowid, update_bind]
  have hfits : ∀ row ∈ run.rest, row.length = run.statement.columns.length := by
    rw [hfresh]
    exact run.statement.fits
  refine Turn.Ensures.andThen (stepRow_yields hk.handle hst rfl hat₆ hrun hfits) ?_
  rintro first ⟨k', l'⟩ ⟨rfl, ⟨stats, hk'⟩, hat⟩
  rw [Running.step_snd hrun] at hk' hat
  dsimp only at hk' hat
  rw [hfresh] at hk' hat
  rw [hfresh]
  dsimp only
  rw [Statement.inferTypes_columns]
  subst hk'
  refine ⟨hk.of_same rfl rfl rfl rfl, hst, rfl, rfl, run.statement.rows.head?, _, _, 1,
    Option.map_map .., ?_, List.tail_suffix _, ?_, ?_, hat⟩
  · cases run.statement.rows <;> rfl
  · exact List.isEmpty_iff.mp
  · cases run.statement.rows <;> simp [Nat.add_comm]

theorem fetch_yields_some {s : Statement} {id : Nat} {row : List Cell} {left : List (List Cell)}
    {ended : Bool} {w : Cursor × (List Use × lam)}
    (h : Offers script s id (row :: left) ended segs ids steps w) :
    (fetch lib.logged w).Yields fun r w' =>
      r = some (s.toRow row) ∧ Offers script s id left false segs ids steps w' := by
  obtain ⟨htracks, hst, hcolumns, hexhausted, peek, current, rest, n, hpeek, hleft, hsuffix, hended,
    hsteps, hat⟩ := h
  obtain rfl : ended = false := by
    cases ended with
    | false => rfl
    | true => exact absurd (hended rfl) (by simp)
  unfold fetch
  rw [read_bind]
  cases peek with
  -- a row that was peeked at is handed out without a step
  | some early =>
    obtain ⟨rfl, rfl⟩ : row = early ∧ left = rest := by simpa using hleft
    rw [hpeek]
    exact ⟨rfl, htracks.of_same rfl rfl rfl rfl, hst, hcolumns, hexhausted, none, current, left, n,
      rfl, rfl, hsuffix, nofun, hsteps, hat⟩
  | none =>
    obtain rfl : rest = row :: left := by simpa using hleft.symm
    rw [hpeek]
    refine Turn.Ensures.andThen (stepRow_yields htracks.handle hst hexhausted hat rfl
      fun cells h => s.fits cells (hsuffix.subset h)) ?_
    rintro cells ⟨k', l'⟩ ⟨rfl, ⟨stats, hk'⟩, hat'⟩
    dsimp only [Running.step] at hk' hat'
    subst hk'
    refine ⟨?_, htracks.of_same rfl rfl rfl rfl, hst, hcolumns, rfl, none, row, left, n + 1, hpeek,
      rfl, (List.suffix_cons row left).trans hsuffix, nofun, ?_, ?_⟩
    · change (some ⟨w.1.columns, row.map Cell.toValue⟩ : Option Row) = _
      rw [hcolumns]
      rfl
    · simp at hsteps ⊢
      omega
    · rw [List.append_assoc, ← List.replicate_succ'] at hat'
      exact hat'

theorem fetch_done {lib : Library lam} {w : Cursor × lam} (hpeek : w.1.peeked = none)
    (hexhausted : w.1.exhausted = true) : fetch lib w = .done (.ok none) w := by
  have hstep : stepRow lib w = .done (.ok none) w := by
    rw [stepRow, read_bind, hexhausted]
    rfl
  rw [fetch, read_bind, hpeek]
  change (stepRow lib >>= _) w = _
  rw [bind_of_done hstep]
  rfl

/-- After the last row none is fetched; a step is made to see that, if none was before. -/
theorem fetch_yields_none {s : Statement} {id : Nat} {ended : Bool}
    {w : Cursor × (List Use × lam)} (h : Offers script s id [] ended segs ids steps w) :
    (fetch lib.logged w).Yields fun r w' =>
      r = none ∧ Offers script s id [] true segs ids steps w' := by
  obtain ⟨htracks, hst, hcolumns, hexhausted, peek, current, rest, n, hpeek, hleft, hsuffix, hended,
    hsteps, hat⟩ := h
  obtain ⟨hnone, rfl⟩ := List.append_eq_nil_iff.mp hleft.symm
  obtain rfl := Option.toList_eq_nil_iff.mp hnone
  cases ended with
  | true =>
    rw [fetch_done hpeek hexhausted]
    exact ⟨rfl, htracks, hst, hcolumns, hexhausted, none, current, [], n, hpeek, rfl, hsuffix,
      fun _ => rfl, hsteps, hat⟩
  | false =>
    rw [fetch, read_bind, hpeek]
    refine Turn.Ensures.andThen (stepRow_yields htracks.handle hst hexhausted hat rfl nofun) ?_
    rintro cells ⟨k', l'⟩ ⟨rfl, ⟨stats, hk'⟩, hat'⟩
    dsimp only [Running.step] at hk' hat'
    subst hk'
    refine ⟨rfl, htracks.of_same rfl rfl rfl rfl, hst, hcolumns, rfl, none, current, [], n + 1,
      hpeek, rfl, hsuffix, fun _ => rfl, ?_, ?_⟩
    · simpa using hsteps
    · rw [List.append_assoc, ← List.replicate_succ'] at hat'
      exact hat'

theorem endStatement_done {r : Option Running} (hst : k.statement = r.map Running.id)
    (hl : script.At segs r ids steps l) :
    ∃ l', endStatement lib.logged (k, l) = .done (.ok ()) ({ k with
        statement := none, peeked := none, exhausted := true, columns := [] }, l') ∧
      script.At segs none ids steps l' := by
  rw [endStatement, read_bind]
  cases r with
  | none =>
    dsimp only
    rw [hst]
    exact ⟨l, rfl, hl⟩
  | some run =>
    obtain ⟨l', hcall, hat⟩ := hl.finalize
    dsimp only
    rw [hst]
    dsimp only [Option.map]
    rw [call_bind_of_eq hcall]
    exact ⟨l', rfl, hat⟩

structure Spent (script : Script lib db params) (ids steps : List Nat)
    (w : Cursor × (List Use × lam)) : Prop where
  tracks : Tracks db params [] w.1
  statement : w.1.statement = none
  columns : w.1.columns = []
  peeked : w.1.peeked = none
  exhausted : w.1.exhausted = true
  stands : script.At [] none ids steps w.2

theorem Spent.fetch_yields {w : Cursor × (List Use × lam)} (h : Spent script ids steps w) :
    (fetch lib.logged w).Yields fun r w' => r = none ∧ Spent script ids steps w' := by
  rw [fetch_done h.peeked h.exhausted]
  exact ⟨rfl, h⟩

/-- Where a cursor gets that has these pieces before it: to their first statement, or else to the
end of its text. -/
def Arrives (script : Script lib db params) (segs : List Segment) (ids steps : List Nat)
    (more : Bool) (w : Cursor × (List Use × lam)) : Prop :=
  match Segment.statements segs with
  | [] => more = false ∧ Spent script ids steps w
  | s :: rest => more = true ∧ ∃ id segs', Segment.statements segs' = rest ∧
      Offers script s id s.rows s.rows.isEmpty segs' (ids ++ [id]) steps w

/-- The cursor goes on to the next statement of its text. -/
theorem advance_yields {r : Option Running} (hk : Tracks db params segs k)
    (hst : k.statement = r.map Running.id) (hl : script.At segs r ids steps l) :
    (advance lib.logged (k, l)).Yields (Arrives script segs ids steps) := by
  obtain ⟨l₁, hend, hat₁⟩ := endStatement_done hst hl
  rw [advance, bind_of_done hend, read_bind]
  dsimp only
  obtain ⟨hnone, o, l₂, hgoes, htracks, hat₂⟩ | ⟨s, more, segs', id, o, sql, l₂, hsome, hmore,
    hgoes, htracks, hat₂⟩ := nextStatement_done (k := { k with
      statement := none, peeked := none, exhausted := true, columns := [] })
      (hk.of_same rfl rfl rfl rfl) hat₁ (Nat.le_refl _)
  · rw [bind_of_done hgoes]
    unfold Arrives
    rw [hnone]
    exact ⟨rfl, htracks, rfl, rfl, rfl, rfl, hat₂⟩
  · rw [bind_of_done hgoes, if_pos rfl, read_bind]
    refine Turn.Ensures.andThen (start_yields htracks rfl hat₂ rfl rfl) ?_
    intro _ w hw
    unfold Arrives
    rw [hsome]
    exact ⟨rfl, id, segs', hmore, hw⟩

theorem Offers.advance_yields {s : Statement} {id : Nat} {w : Cursor × (List Use × lam)}
    (h : Offers script s id [] true segs ids steps w) :
    (advance lib.logged w).Yields
      (Arrives script segs ids (steps ++ List.replicate (s.rows.length + 1) id)) := by
  obtain ⟨htracks, hst, -, -, peek, current, rest, n, -, hleft, -, -, hsteps, hat⟩ := h
  obtain ⟨-, rfl⟩ := List.append_eq_nil_iff.mp hleft.symm
  obtain rfl : n = s.rows.length + 1 := hsteps
  exact Cursor.advance_yields (r := some ⟨id, s, current, [], true⟩) htracks hst hat

theorem Spent.advance_yields {w : Cursor × (List Use × lam)} (h : Spent script ids steps w) :
    (advance lib.logged w).Yields (Arrives script [] ids steps) :=
  Cursor.advance_yields (r := none) h.tracks h.statement h.stands

end Cursor
end DatabaseSession.Sqlite
