import DatabaseSession.Proofs.Plays
import DatabaseSession.Proofs.Custody
import DatabaseSession.Sqlite.Cursor

namespace DatabaseSession.Sqlite

open Play Library

variable {lam α β : Type}

namespace Library

namespace Use

/-- The call hands nothing over and takes nothing back. -/
def isPlain : Use → Bool
  | .openFile .. | .close _ | .prepare .. | .finalize _ => false
  | _ => true

/-- A plain call, with this handle and this statement or with nothing. -/
structure Within (db : Nat) (st : Option Nat) (u : Use) : Prop where
  plain : u.isPlain = true
  handle : ∀ h ∈ u.handle?, h = db
  statement : ∀ s ∈ u.statement?, st = some s

end Use

/-- What can be said of the log while a cursor on this handle works: the text that it reads, how far
it has read, and the statement that it has. Others may make calls by `R` meanwhile. -/
structure Watch (lib : Library lam) (db : Nat) (R : List Use × lam → List Use × lam → Prop) where
  Holds : List UInt8 → Nat → Option Nat → List Use → Prop
  others : ∀ {text o st} {l l' : List Use × lam}, Holds text o st l.1 → R l l' →
    Holds text o st l'.1
  call : ∀ {text o st log} {u : Use}, Holds text o st log → u.Within db st →
    Holds text o st (log ++ [u])
  finalized : ∀ {text o st log}, Holds text o (some st) log →
    Holds text o none (log ++ [.finalize st])
  prepared : ∀ {text o r x} {l : List Use × lam}, Holds text o none l.1 →
    lib.prepare db (text.drop o) l.2 = (r, x) → r.code = okCode →
    Holds text (min (o + max (r.taken.getD (text.drop o).length) 1) text.length) r.statement
      (l.1 ++ [.prepare db (text.drop o) r])
  refused : ∀ {text o r x} {l : List Use × lam}, Holds text o none l.1 →
    lib.prepare db (text.drop o) l.2 = (r, x) → r.code ≠ okCode →
    Holds text text.length none (l.1 ++ [.prepare db (text.drop o) r])

namespace Watch

variable {lib : Library lam} {db : Nat} {R : List Use × lam → List Use × lam → Prop}
  {W W' : Watch lib db R} {st : Option Nat}

/-- The calls are such as the watch allows. -/
def Spares (W : Watch lib db R) (st : Option Nat) (f : StateM (List Use × lam) α) : Prop :=
  ∀ text o l, W.Holds text o st l.1 → W.Holds text o st (f l).2.1

theorem spares_noted {use : α → Use} {f : StateM lam α} (h : ∀ a, (use a).Within db st) :
    W.Spares st (noted use f) :=
  fun _ _ _ hl => W.call hl (h _)

theorem spares_pure (a : α) : W.Spares st (pure a : StateM (List Use × lam) α) :=
  fun _ _ _ hl => hl

theorem Spares.bind {f : StateM (List Use × lam) α} {g : α → StateM (List Use × lam) β}
    (hf : W.Spares st f) (hg : ∀ a, W.Spares st (g a)) : W.Spares st (f >>= g) :=
  fun text o l hl => hg _ text o _ (hf text o l hl)

theorem spares_mapM {f : β → StateM (List Use × lam) α} (h : ∀ b, W.Spares st (f b))
    (bs : List β) : W.Spares st (bs.mapM f) := by
  induction bs with
  | nil => exact fun _ _ _ hl => hl
  | cons b bs ih =>
    rw [List.mapM_cons]
    exact (h b).bind fun _ => ih.bind fun _ => spares_pure _

end Watch
end Library

namespace Cursor

variable {lib : Library lam} {db : Nat} {R : List Use × lam → List Use × lam → Prop}
  {W W' : Watch lib db R} {st : Option Nat}

structure Watched (W : Watch lib db R) (st : Option Nat) (w : Cursor × (List Use × lam)) :
    Prop where
  handle : w.1.db = db
  statement : w.1.statement = st
  holds : W.Holds w.1.text w.1.offset st w.2.1

def LetBe (R : List Use × lam → List Use × lam → Prop) (w w' : Cursor × (List Use × lam)) : Prop :=
  w'.1 = w.1 ∧ R w.2 w'.2

theorem watched_call {f : StateM (List Use × lam) α} (h : W.Spares st f) :
    Keeps (LetBe R) (Watched W st) (call f) :=
  fun _ hw => ⟨hw.handle, hw.statement, h _ _ _ hw.holds⟩

structure Inward (f : Cursor → Cursor) : Prop where
  db : ∀ c, (f c).db = c.db
  text : ∀ c, (f c).text = c.text
  offset : ∀ c, (f c).offset = c.offset
  statement : ∀ c, (f c).statement = c.statement

theorem watched_update {f : Cursor → Cursor} (hf : Inward f) :
    Keeps (LetBe R) (Watched W st) (Move.update f : Move (List Use × lam) Unit) := by
  intro w hw
  refine ⟨(hf.db w.1).trans hw.handle, (hf.statement w.1).trans hw.statement, ?_⟩
  change W.Holds (f w.1).text (f w.1).offset st w.2.1
  rw [hf.text, hf.offset]
  exact hw.holds

theorem watched_update_bind {f : Cursor → Cursor} {g : Unit → Move (List Use × lam) α}
    (hf : Inward f) (hg : Keeps (LetBe R) (Watched W st) (g ())) :
    Keeps (LetBe R) (Watched W st) (Move.update f >>= g) :=
  (watched_update hf).bind fun _ => hg

theorem watched_read {f : Cursor → Move (List Use × lam) α} {I : Cursor × (List Use × lam) → Prop}
    (h : ∀ c, c.db = db → c.statement = st → Leads (LetBe R) (Watched W st) (f c) I) :
    Leads (LetBe R) (Watched W st) (Move.read >>= f) I :=
  fun w hw => h w.1 hw.handle hw.statement w hw

theorem watched_complain (code : Int) (sql : String) (wrap : QueryIssue → Error) :
    Keeps (LetBe R) (Watched W st)
      (call (explain lib.logged db code sql) >>= fun e => (fail (wrap e) : Move _ α)) := by
  have hcode : W.Spares st (lib.logged.errorCode db) :=
    Watch.spares_noted fun _ => ⟨rfl, by simp [Use.handle?], by simp [Use.statement?]⟩
  have hmessage : W.Spares st (lib.logged.errorMessage db) :=
    Watch.spares_noted fun _ => ⟨rfl, by simp [Use.handle?], by simp [Use.statement?]⟩
  have hexplain : W.Spares st (explain lib.logged db code sql) :=
    hcode.bind fun _ => hmessage.bind fun _ => Watch.spares_pure _
  exact (watched_call hexplain).bind fun e => leads_fail (wrap e) fun _ h => h

theorem leads_endStatement :
    Leads (LetBe R) (Watched W st) (endStatement lib.logged) (Watched W none) := by
  rintro ⟨c, l⟩ ⟨hdb, hst, hholds⟩
  unfold endStatement
  rw [read_bind]
  dsimp only at hst ⊢
  rw [hst]
  cases st with
  | none => exact ⟨hdb, rfl, hholds⟩
  | some statement => exact ⟨hdb, rfl, W.finalized hholds⟩

theorem leads_nextStatement (left : Nat) :
    Leads (LetBe R) (Watched W none) (nextStatement lib.logged left)
      fun w => ∃ st, Watched W st w := by
  induction left with
  | zero => exact leads_pure false fun w hw => ⟨none, hw⟩
  | succ left ih =>
    rintro ⟨c, l⟩ ⟨rfl, hst, hholds⟩
    unfold nextStatement
    rw [read_bind]
    split
    · exact ⟨none, rfl, hst, hholds⟩
    · cases hprep : lib.prepare c.db (c.text.drop c.offset) l.2 with
      | mk r x =>
        have hcall : lib.logged.prepare c.db (c.text.drop c.offset) l =
            (r, (l.1 ++ [.prepare c.db (c.text.drop c.offset) r], x)) := by
          change noted _ _ l = _
          rw [noted, hprep]
        rw [call_bind]
        dsimp only
        rw [hcall]
        dsimp only
        split
        · next hfailed =>
          rw [update_bind]
          refine Turn.Ensures.mono (fun _ _ h => h) ?_ ?_
            (watched_complain _ _ .query _ ⟨rfl, hst, W.refused hholds hprep hfailed⟩)
          · exact fun _ _ h => ⟨none, h⟩
          · exact fun _ _ h => ⟨none, h⟩
        · next hok =>
          have hafter := W.prepared hholds hprep (not_not.mp hok)
          cases hs : r.statement with
          -- no statement in this piece: on to the next
          | none =>
            rw [hs] at hafter
            exact ih _ ⟨rfl, hst, hafter⟩
          | some statement =>
            rw [hs] at hafter
            exact ⟨some statement, rfl, rfl, hafter⟩

theorem watched_bindFrom (statement index : Nat) (values : List Value) :
    Keeps (LetBe R) (Watched W (some statement))
      (bindFrom lib.logged statement index values) := by
  induction values generalizing index with
  | nil => exact leads_pure () fun _ h => h
  | cons value values ih =>
    have hbind : W.Spares (some statement) (lib.logged.bind statement index (.ofValue value)) :=
      Watch.spares_noted fun _ => ⟨rfl, by simp [Use.handle?], by simp [Use.statement?]⟩
    refine (watched_call hbind).bind fun code => ?_
    dsimp only
    split
    · refine watched_read fun c hdb _ => ?_
      rw [hdb]
      exact watched_complain _ _ _
    · exact ih (index + 1)

theorem spares_readColumns (statement count : Nat) :
    W.Spares (some statement) (readColumns lib.logged statement count) := by
  refine Watch.spares_mapM (fun i => ?_) _
  have hname : W.Spares (some statement) (lib.logged.columnName statement i) :=
    Watch.spares_noted fun _ => ⟨rfl, by simp [Use.handle?], by simp [Use.statement?]⟩
  have htype : W.Spares (some statement) (lib.logged.declaredType statement i) :=
    Watch.spares_noted fun _ => ⟨rfl, by simp [Use.handle?], by simp [Use.statement?]⟩
  exact hname.bind fun _ => htype.bind fun _ => Watch.spares_pure _

theorem watched_columnCount (statement : Nat) :
    Keeps (LetBe R) (Watched W (some statement)) (call (lib.logged.columnCount statement)) :=
  watched_call (Watch.spares_noted fun _ => ⟨rfl, by simp [Use.handle?], by simp [Use.statement?]⟩)

theorem watched_totalChanges :
    Keeps (LetBe R) (Watched W st) (call (lib.logged.totalChanges db)) :=
  watched_call (Watch.spares_noted fun _ => ⟨rfl, by simp [Use.handle?], by simp [Use.statement?]⟩)

theorem watched_lastRowid : Keeps (LetBe R) (Watched W st) (call (lib.logged.lastRowid db)) :=
  watched_call (Watch.spares_noted fun _ => ⟨rfl, by simp [Use.handle?], by simp [Use.statement?]⟩)

theorem watched_countChanges (statement : Nat) :
    Keeps (LetBe R) (Watched W (some statement)) (countChanges lib.logged statement) := by
  refine watched_read fun c hdb _ => ?_
  rw [hdb]
  have hchanges : W.Spares (some statement) (lib.logged.changes db) :=
    Watch.spares_noted fun _ => ⟨rfl, by simp [Use.handle?], by simp [Use.statement?]⟩
  refine (watched_columnCount statement).bind fun _ => watched_totalChanges.bind fun _ =>
    (watched_call hchanges).bind fun _ => watched_lastRowid.bind fun _ => ?_
  exact watched_update ⟨fun _ => rfl, fun _ => rfl, fun _ => rfl, fun _ => rfl⟩

/-- A step takes the log from what one watch says to what another says. -/
theorem leads_step {statement : Nat} (hstep : ∀ {text o log}, W.Holds text o (some statement) log →
      W'.Holds text o (some statement) (log ++ [.step statement])) :
    Leads (LetBe R) (Watched W (some statement)) (Play.beside (lib.logged.step statement))
      (Watched W' (some statement)) := by
  rintro ⟨c, l⟩ ⟨hdb, hst, hholds⟩
  have hinner : (lib.logged.step statement l).Ensures R
      (fun _ l => W'.Holds c.text c.offset (some statement) l.1)
      fun _ l => W'.Holds c.text c.offset (some statement) l.1 := by
    refine Turn.Ensures.focus (F := fun l => W'.Holds c.text c.offset (some statement) l.1)
      ?_ ?_ ?_ (Turn.Ensures.trivial (R := fun _ _ => True) _) (hstep hholds)
    · exact fun x l l' hl h => ⟨W'.others (l := (l.1, x)) hl h, trivial⟩
    · exact fun _ _ _ hl _ => hl
    · exact fun _ _ _ hl _ => hl
  refine Turn.Ensures.focus (F := fun w => w.1 = c) ?_ ?_ ?_ hinner rfl
  · exact fun _ _ _ hw h => ⟨h.1.trans hw, h.2⟩
  · rintro _ l' w rfl hl'
    exact ⟨hdb, hst, hl'⟩
  · rintro _ l' w rfl hl'
    exact ⟨hdb, hst, hl'⟩

theorem holds_step {text : List UInt8} {o statement : Nat} {log : List Use}
    (h : W.Holds text o (some statement) log) :
    W.Holds text o (some statement) (log ++ [.step statement]) :=
  W.call h ⟨rfl, by simp [Use.handle?], by simp [Use.statement?]⟩

theorem watched_stepped {statement : Nat} (code : Int) {c : Cursor} (hdb : c.db = db) :
    Keeps (LetBe R) (Watched W (some statement)) (do
      if code = rowCode then
        let count ← call (lib.logged.columnCount statement)
        let cells ← call ((List.range count).mapM fun i => lib.logged.cell statement i)
        return some (cells.map Cell.toValue)
      else
        Move.update fun c => { c with exhausted := true }
        if code = doneCode then
          countChanges lib.logged statement
          return none
        else Play.fail (.query (← call (explain lib.logged c.db code c.sql)))) := by
  split
  · refine (watched_columnCount statement).bind fun count => ?_
    have hcells : ∀ i, W.Spares (some statement) (lib.logged.cell statement i) := fun i =>
      Watch.spares_noted fun _ => ⟨rfl, by simp [Use.handle?], by simp [Use.statement?]⟩
    exact (watched_call (Watch.spares_mapM hcells _)).bind fun _ => leads_pure _ fun _ h => h
  · refine watched_update_bind ⟨fun _ => rfl, fun _ => rfl, fun _ => rfl, fun _ => rfl⟩ ?_
    split
    · exact (watched_countChanges statement).bind fun _ => leads_pure none fun _ h => h
    · rw [hdb]
      exact watched_complain _ _ _

theorem leads_stepRow {statement : Nat} (hstep : ∀ {text o log},
      W.Holds text o (some statement) log →
      W'.Holds text o (some statement) (log ++ [.step statement])) :
    Leads (LetBe R) (fun w => Watched W (some statement) w ∧ w.1.exhausted = false)
      (stepRow lib.logged) (Watched W' (some statement)) := by
  rintro ⟨c, l⟩ ⟨hw, hmore⟩
  have hst := hw.statement
  unfold stepRow
  rw [read_bind]
  dsimp only at hst hmore ⊢
  rw [hst, hmore]
  exact (leads_step hstep).bind (fun code => watched_stepped code hw.handle) (fun _ h => h) _ hw

theorem watched_stepRow : Keeps (LetBe R) (Watched W st) (stepRow lib.logged) := by
  rintro ⟨c, l⟩ hw
  cases hmore : c.exhausted with
  | true =>
    unfold stepRow
    rw [read_bind]
    dsimp only
    rw [hmore]
    exact hw
  | false =>
    cases st with
    | none =>
      have hst := hw.statement
      unfold stepRow
      rw [read_bind]
      dsimp only at hst ⊢
      rw [hmore, hst]
      exact hw
    | some statement => exact leads_stepRow holds_step _ ⟨hw, hmore⟩

theorem start_watched {statement : Nat} (hstep : ∀ {text o log},
      W.Holds text o (some statement) log →
      W'.Holds text o (some statement) (log ++ [.step statement]))
    {w : Cursor × (List Use × lam)} (hw : Watched W (some statement) w) :
    (start lib.logged statement w).Ensures (LetBe R) (fun _ => Watched W' (some statement))
      fun _ w' => Watched W (some statement) w' ∨ Watched W' (some statement) w' := by
  have hneeded : W.Spares (some statement) (lib.logged.parameterCount statement) :=
    Watch.spares_noted fun _ => ⟨rfl, by simp [Use.handle?], by simp [Use.statement?]⟩
  -- Until the step is made, what the first watch says is kept.
  have hbefore : ∀ {γ δ : Type} {m : Move (List Use × lam) γ} {f : γ → Move (List Use × lam) δ}
      {Q : δ → Cursor × (List Use × lam) → Prop} {w},
      Keeps (LetBe R) (Watched W (some statement)) m → Watched W (some statement) w →
      (∀ a w, Watched W (some statement) w → (f a w).Ensures (LetBe R) Q
        fun _ w' => Watched W (some statement) w' ∨ Watched W' (some statement) w') →
      ((m >>= f) w).Ensures (LetBe R) Q
        fun _ w' => Watched W (some statement) w' ∨ Watched W' (some statement) w' :=
    fun hm hw hf => Turn.Ensures.andThen
      ((hm _ hw).mono (fun _ _ h => h) (fun _ _ h => h) fun _ _ h => .inl h) hf
  have hdb := hw.handle
  unfold start
  rw [read_bind]
  refine hbefore (watched_call hneeded) hw fun needed w hw => ?_
  split
  · exact .inl hw
  · refine hbefore (watched_bindFrom statement 1 _) hw fun _ w hw => ?_
    refine hbefore (watched_columnCount statement) hw fun count w hw => ?_
    refine hbefore (watched_call (spares_readColumns statement count)) hw fun declared w hw => ?_
    rw [hdb]
    refine hbefore watched_totalChanges hw fun _ w hw => ?_
    refine hbefore watched_lastRowid hw fun _ w hw => ?_
    rw [update_bind]
    refine Turn.Ensures.andThen (Turn.Ensures.mono (fun _ _ h => h) (fun _ _ h => h)
      (fun _ _ h => .inr h) (leads_stepRow hstep _ ⟨?_, rfl⟩)) fun first w hw => ?_
    · exact ⟨hw.handle, hw.statement, hw.holds⟩
    · exact ⟨hw.handle, hw.statement, hw.holds⟩

theorem watched_start (statement : Nat) :
    Keeps (LetBe R) (Watched W (some statement)) (start lib.logged statement) :=
  fun _ hw => (start_watched holds_step hw).mono (fun _ _ h => h) (fun _ _ h => h)
    fun _ _ h => h.elim id id

theorem watched_found : Keeps (LetBe R) (fun w => ∃ st, Watched W st w) (do
    match (← Move.read).statement with
    | some statement =>
      start lib.logged statement
      return true
    | none => return false) := by
  rintro w ⟨st, hw⟩
  refine watched_read (fun c _ hst => ?_) w hw
  rw [hst]
  cases st with
  | none => exact leads_pure false fun _ h => ⟨none, h⟩
  | some statement =>
    refine Leads.bind (watched_start statement) (fun _ => ?_) fun _ h => ⟨_, h⟩
    exact leads_pure true fun _ h => ⟨_, h⟩

theorem watched_advance :
    Keeps (LetBe R) (fun w => ∃ st, Watched W st w) (advance lib.logged) := by
  rintro w ⟨st, hw⟩
  refine leads_endStatement.bind (fun _ => ?_) (fun _ h => ⟨none, h⟩) w hw
  refine watched_read fun c _ _ => ?_
  refine (leads_nextStatement _).bind (fun more => ?_) fun _ h => h
  cases more with
  | false => exact leads_pure false fun _ h => h
  | true => exact watched_found

theorem watched_fetch : Keeps (LetBe R) (Watched W st) (fetch lib.logged) := by
  refine watched_read fun c _ _ => ?_
  cases c.peeked with
  | some row =>
    exact watched_update_bind ⟨fun _ => rfl, fun _ => rfl, fun _ => rfl, fun _ => rfl⟩
      (leads_pure _ fun _ h => h)
  | none =>
    refine watched_stepRow.bind fun cells => ?_
    exact watched_read fun _ _ _ => leads_pure _ fun _ h => h

end Cursor
end DatabaseSession.Sqlite
