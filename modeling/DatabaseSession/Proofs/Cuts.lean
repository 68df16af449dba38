import DatabaseSession.Proofs.Counters

namespace DatabaseSession.Sqlite

open Play Library

variable {lam α : Type}

namespace Library

def Mark.isFine : Mark → Bool
  | .prepared _ _ answer => decide (answer.code = okCode)
  | .stepped _ code => decide (code = rowCode) || decide (code = doneCode)
  | _ => true

def preparations (ms : List Mark) : List Mark := ms.filter Mark.isPreparation

theorem preparations_append (ms ms' : List Mark) :
    preparations (ms ++ ms') = preparations ms ++ preparations ms' :=
  List.filter_append ..

end Library

/-- A call that prepares: where in the text it begins, and what it answers. -/
structure Cut where
  offset : Nat
  answer : Prepared

namespace Cut

variable {text : List UInt8} {c : Cut}

/-- Where the library has read to. -/
def stop (text : List UInt8) (c : Cut) : Nat :=
  c.offset + c.answer.taken.getD (text.drop c.offset).length

/-- Where the text goes on: a byte further at least, and nowhere after a failure. -/
def next (text : List UInt8) (c : Cut) : Nat :=
  if c.answer.code = okCode then min (max (c.stop text) (c.offset + 1)) text.length
  else text.length

def sql (text : List UInt8) (c : Cut) : String :=
  Text.trim (Text.decodeLossy ((text.drop c.offset).take (c.stop text - c.offset)))

def mark (db : Nat) (text : List UInt8) (c : Cut) : Mark :=
  .prepared db (text.drop c.offset) c.answer

theorem lt_next (h : c.offset < text.length) : c.offset < c.next text := by
  unfold next
  split <;> omega

theorem next_le (text : List UInt8) (c : Cut) : c.next text ≤ text.length := by
  unfold next
  split <;> omega

theorem next_of_ok (text : List UInt8) (h : c.answer.code = okCode) :
    c.next text =
      min (c.offset + max (c.answer.taken.getD (text.drop c.offset).length) 1) text.length := by
  rw [next, if_pos h, stop]
  omega

theorem le_stop (text : List UInt8) (c : Cut) : c.offset ≤ c.stop text := Nat.le_add_right _ _

theorem ok_of_next_lt (h : c.next text < text.length) :
    c.answer.code = okCode ∧ c.stop text ≤ c.next text := by
  unfold next at h ⊢
  split at h
  · next hok =>
    rw [if_pos hok]
    exact ⟨hok, by omega⟩
  · omega

end Cut

/-- The text is cut up from the first place to the last, each time where the cut before left off. -/
inductive Cuts (text : List UInt8) : Nat → List Cut → Nat → Prop
  | refl (o : Nat) : Cuts text o [] o
  | cons {c : Cut} {cuts : List Cut} {a o : Nat} (ha : c.offset = a) (hc : c.offset < text.length)
      (h : Cuts text (c.next text) cuts o) : Cuts text a (c :: cuts) o

namespace Cuts

variable {text : List UInt8} {a b o : Nat} {cuts cuts' : List Cut} {c : Cut}

theorem append (h : Cuts text a cuts b) (h' : Cuts text b cuts' o) :
    Cuts text a (cuts ++ cuts') o := by
  induction h with
  | refl => exact h'
  | cons ha hc _ ih => exact .cons ha hc (ih h')

theorem eq_of_nil (h : Cuts text a [] b) : b = a := by
  cases h
  rfl

theorem of_append (h : Cuts text a (cuts ++ cuts') b) (h' : Cuts text a cuts o) :
    Cuts text o cuts' b := by
  induction h' with
  | refl => exact h
  | cons _ _ _ ih =>
    cases h with
    | cons _ _ h => exact ih h

theorem add_length_le (h : Cuts text a cuts b) : a + cuts.length ≤ b := by
  induction h with
  | refl => exact Nat.le_refl _
  | cons ha hc _ ih =>
    have := Cut.lt_next hc
    rw [List.length_cons]
    omega

theorem le_length (h : Cuts text a cuts b) (ha : a ≤ text.length) : b ≤ text.length := by
  induction h with
  | refl => exact ha
  | cons _ _ _ ih => exact ih (Cut.next_le ..)

theorem offset_bounds (h : Cuts text a cuts b) (hc : c ∈ cuts) :
    a ≤ c.offset ∧ c.offset < text.length := by
  induction h with
  | refl => cases hc
  | cons ha hd _ ih =>
    have hlt := Cut.lt_next hd
    rcases List.mem_cons.mp hc with rfl | hc
    · exact ⟨Nat.le_of_eq ha.symm, hd⟩
    · exact ⟨by have := (ih hc).1; omega, (ih hc).2⟩

theorem pairwise_next_le (h : Cuts text a cuts b) :
    cuts.Pairwise fun c d => c.next text ≤ d.offset := by
  induction h with
  | refl => exact .nil
  | cons _ _ h ih => exact .cons (fun d hd => (h.offset_bounds hd).1) ih

theorem pairwise_offset_lt (h : Cuts text a cuts b) :
    cuts.Pairwise fun c d => c.offset < d.offset :=
  h.pairwise_next_le.imp_of_mem fun hc _ hle =>
    Nat.lt_of_lt_of_le (Cut.lt_next (h.offset_bounds hc).2) hle

/-- A cut that another one follows has succeeded, and was read no further than the next begins. -/
theorem pairwise_ok (h : Cuts text a cuts b) :
    cuts.Pairwise fun c d => c.answer.code = okCode ∧ c.stop text ≤ d.offset :=
  h.pairwise_next_le.imp_of_mem fun _ hd hle => by
    obtain ⟨hok, hstop⟩ := Cut.ok_of_next_lt (Nat.lt_of_le_of_lt hle (h.offset_bounds hd).2)
    exact ⟨hok, Nat.le_trans hstop hle⟩

theorem eq_nil_of_length_le (h : Cuts text a cuts b) (ha : text.length ≤ a) : cuts = [] := by
  cases h with
  | refl => rfl
  | cons _ hc _ => omega

theorem length_le_of_failed (h : Cuts text a cuts b) (hc : c ∈ cuts)
    (hcode : c.answer.code ≠ okCode) : text.length ≤ b := by
  induction h with
  | refl => cases hc
  | cons _ _ h ih =>
    rcases List.mem_cons.mp hc with rfl | hc
    · have hle := h.add_length_le
      rw [Cut.next, if_neg hcode] at hle
      omega
    · exact ih hc

end Cuts

namespace Cursor

variable {lib : Library lam} {w w' w'' : Cursor × (List Mark × lam)} {fine fine' : Bool}
  {cuts cuts' : List Cut}

/-- From one state to the other these cuts were made. If all is fine, no call has failed. -/
structure Cutting (lib : Library lam) (fine : Bool) (cuts : List Cut)
    (w w' : Cursor × (List Mark × lam)) : Prop where
  db : w'.1.db = w.1.db
  text : w'.1.text = w.1.text
  path : Cuts w.1.text w.1.offset cuts w'.1.offset
  answers : ∀ c ∈ cuts, ∃ l, (lib.prepare w.1.db (w.1.text.drop c.offset) l).1 = c.answer
  marks : ∃ new, w'.2.1 = w.2.1 ++ new ∧
    preparations new = cuts.map (Cut.mark w.1.db w.1.text) ∧
    (fine = true → ∀ m ∈ new, m.isFine = true)

namespace Cutting

theorem refl (w : Cursor × (List Mark × lam)) : Cutting lib fine [] w w :=
  ⟨rfl, rfl, .refl _, by simp, [], by simp, rfl, by simp⟩

theorem trans (h : Cutting lib fine cuts w w') (h' : Cutting lib fine cuts' w' w'') :
    Cutting lib fine (cuts ++ cuts') w w'' := by
  obtain ⟨new, hnew, hcuts, hfine⟩ := h.marks
  obtain ⟨new', hnew', hcuts', hfine'⟩ := h'.marks
  have hpath := h'.path
  have hanswers := h'.answers
  rw [h.text] at hpath hanswers hcuts'
  rw [h.db] at hanswers hcuts'
  refine ⟨h'.db.trans h.db, h'.text.trans h.text, h.path.append hpath, ?_, new ++ new', ?_, ?_, ?_⟩
  · intro c hc
    exact (List.mem_append.mp hc).elim (h.answers c) (hanswers c)
  · rw [hnew', hnew, List.append_assoc]
  · rw [preparations_append, hcuts, hcuts', List.map_append]
  · intro hall m hm
    exact (List.mem_append.mp hm).elim (hfine hall m) (hfine' hall m)

theorem mono (h : Cutting lib fine cuts w w') (hfine : fine' = true → fine = true) :
    Cutting lib fine' cuts w w' := by
  obtain ⟨new, hnew, hcuts, hnone⟩ := h.marks
  exact ⟨h.db, h.text, h.path, h.answers, new, hnew, hcuts, fun h => hnone (hfine h)⟩

theorem code_eq_ok (h : Cutting lib true cuts w w') {c : Cut} (hc : c ∈ cuts) :
    c.answer.code = okCode := by
  obtain ⟨new, -, hcuts, hfine⟩ := h.marks
  have hmem : c.mark w.1.db w.1.text ∈ preparations new := hcuts ▸ List.mem_map_of_mem hc
  simpa [Cut.mark, Mark.isFine] using hfine rfl _ (List.mem_filter.mp hmem).1

end Cutting

theorem Cutting.single {k k' : Cursor} {ms : List Mark} {l l' : lam} {r : Prepared}
    (hr : ∃ l, (lib.prepare k.db (k.text.drop k.offset) l).1 = r)
    (hlt : k.offset < k.text.length) (hdb : k'.db = k.db) (htext : k'.text = k.text)
    (hoffset : k'.offset = Cut.next k.text ⟨k.offset, r⟩) (hfine : fine = true → r.code = okCode) :
    Cutting lib fine [⟨k.offset, r⟩] (k, (ms, l))
      (k', (ms ++ [.prepared k.db (k.text.drop k.offset) r], l')) := by
  refine ⟨hdb, htext, ?_, by simpa using hr, _, rfl, rfl, ?_⟩
  · exact .cons rfl hlt (hoffset ▸ .refl _)
  · simpa [Mark.isFine] using hfine

/-- The current statement is the one of the last cut. -/
def AtLast (cuts : List Cut) (k : Cursor) : Prop :=
  ∀ st, k.statement = some st →
    ∃ c, cuts.getLast? = some c ∧ c.answer.statement = some st ∧ k.sql = c.sql k.text

structure SamePlace (k k' : Cursor) : Prop where
  db : k'.db = k.db
  text : k'.text = k.text
  offset : k'.offset = k.offset
  statement : k'.statement = k.statement
  sql : k'.sql = k.sql

theorem SamePlace.trans {k k' k'' : Cursor} (h : SamePlace k k') (h' : SamePlace k' k'') :
    SamePlace k k'' :=
  ⟨h'.db.trans h.db, h'.text.trans h.text, h'.offset.trans h.offset,
    h'.statement.trans h.statement, h'.sql.trans h.sql⟩

theorem AtLast.samePlace {k k' : Cursor} (h : AtLast cuts k) (hplace : SamePlace k k') :
    AtLast cuts k' := by
  intro st hst
  rw [hplace.statement] at hst
  rw [hplace.sql, hplace.text]
  exact h st hst

theorem atLast_of_none {k : Cursor} (h : k.statement = none) : AtLast cuts k := by
  intro st hst
  rw [h] at hst
  cases hst

theorem AtLast.exists_append {k : Cursor} (h : AtLast cuts k) (hsome : k.statement.isSome = true) :
    ∃ init c, cuts = init ++ [c] := by
  obtain ⟨st, hst⟩ := Option.isSome_iff_exists.mp hsome
  obtain ⟨c, hc, -⟩ := h st hst
  obtain ⟨init, rfl⟩ := List.getLast?_eq_some_iff.mp hc
  exact ⟨init, c, rfl⟩

/-- Other calls were made than those that prepare. -/
def Beyond (fine : Bool) (w w' : Cursor × (List Mark × lam)) : Prop :=
  SamePlace w.1 w'.1 ∧ ∃ new, w'.2.1 = w.2.1 ++ new ∧ preparations new = [] ∧
    (fine = true → ∀ m ∈ new, m.isFine = true)

namespace Beyond

theorem still {k k' : Cursor} {ms : List Mark} {l l' : lam} (h : SamePlace k k') :
    Beyond fine (k, (ms, l)) (k', (ms, l')) :=
  ⟨h, [], by simp, rfl, by simp⟩

theorem trans (h : Beyond fine w w') (h' : Beyond fine w' w'') : Beyond fine w w'' := by
  obtain ⟨hplace, new, hnew, hnone, hfine⟩ := h
  obtain ⟨hplace', new', hnew', hnone', hfine'⟩ := h'
  refine ⟨hplace.trans hplace', new ++ new', ?_, ?_, ?_⟩
  · rw [hnew', hnew, List.append_assoc]
  · rw [preparations_append, hnone, hnone', List.append_nil]
  · intro hall m hm
    exact (List.mem_append.mp hm).elim (hfine hall m) (hfine' hall m)

theorem mono (h : Beyond fine w w') (hfine : fine' = true → fine = true) :
    Beyond fine' w w' := by
  obtain ⟨hplace, new, hnew, hnone, hall⟩ := h
  exact ⟨hplace, new, hnew, hnone, fun h => hall (hfine h)⟩

theorem cutting (h : Beyond fine w w') : Cutting lib fine [] w w' := by
  obtain ⟨hplace, hmarks⟩ := h
  refine ⟨hplace.db, hplace.text, ?_, by simp, hmarks⟩
  rw [hplace.offset]
  exact .refl _

end Beyond

theorem countChanges_beyond (statement : Nat) (w : Cursor × (List Mark × lam)) :
    (countChanges lib.marked statement w).Ensures Apart (fun _ => Beyond true w)
      fun _ => Beyond false w := by
  obtain ⟨k, ms, l⟩ := w
  unfold countChanges
  rw [read_bind]
  refine ensures_marking fun columns _ => ensures_marking fun total _ =>
    ensures_marking fun changes _ => ensures_marking fun rowid _ => ?_
  refine ⟨⟨rfl, rfl, rfl, rfl, rfl⟩, [.columns statement columns, .total k.db total,
    .changes k.db changes, .rowid k.db rowid], ?_, rfl, ?_⟩
  · simp
  · simp [Mark.isFine]

theorem stepRow_beyond (w : Cursor × (List Mark × lam)) :
    (stepRow lib.marked w).Ensures Apart (fun _ => Beyond true w) fun _ => Beyond false w := by
  obtain ⟨k, ms, l⟩ := w
  have hstill : ∀ fine l', Beyond fine (k, (ms, l)) (k, (ms, l')) := fun _ _ =>
    .still ⟨rfl, rfl, rfl, rfl, rfl⟩
  unfold stepRow
  rw [read_bind]
  dsimp only
  cases k.exhausted with
  | true => exact hstill true l
  | false =>
    cases k.statement with
    | none => exact hstill true l
    | some statement =>
      refine ensures_step (fun _ l' => hstill false l') fun code l' => ?_
      split
      · next hrow =>
        refine ensures_marking fun n _ =>
          ensures_silent (silent_mapM (fun _ => silent_unmarked _) _) fun cells _ => ?_
        refine ⟨⟨rfl, rfl, rfl, rfl, rfl⟩, [.stepped statement code, .columns statement n], ?_, rfl,
          ?_⟩
        · simp
        · simp [Mark.isFine, hrow]
      · have hstepped : ∀ fine, (fine = true → code = doneCode) → ∀ l'', Beyond fine (k, (ms, l))
            ({ k with exhausted := true }, (ms ++ [.stepped statement code], l'')) := by
          intro fine hfine l''
          refine ⟨⟨rfl, rfl, rfl, rfl, rfl⟩, [.stepped statement code], rfl, rfl, fun hall => ?_⟩
          simp [Mark.isFine, hfine hall]
        rw [update_bind]
        dsimp only
        split
        · next hdone =>
          refine Turn.Ensures.andThen ((countChanges_beyond statement _).mono (fun _ _ h => h)
            (fun _ _ h => h) fun _ _ h => (hstepped false (by simp) l').trans h) ?_
          exact fun _ _ h => (hstepped true (fun _ => hdone) l').trans h
        · exact ensures_silent (silent_explain _ _ _) fun _ l'' => hstepped false (by simp) l''

theorem start_beyond (statement : Nat) (w : Cursor × (List Mark × lam)) :
    (start lib.marked statement w).Ensures Apart (fun _ => Beyond true w)
      fun _ => Beyond false w := by
  obtain ⟨k, ms, l⟩ := w
  have hstill : ∀ l', Beyond false (k, (ms, l)) (k, (ms, l')) := fun _ =>
    .still ⟨rfl, rfl, rfl, rfl, rfl⟩
  unfold start
  rw [read_bind]
  refine ensures_silent (silent_unmarked _) fun needed l' => ?_
  dsimp only
  split
  · exact hstill l'
  · refine ensures_kept (seen_bindFrom _ _ _) (fun _ => hstill) fun _ _ =>
      ensures_marking fun declared _ => ensures_silent (silent_readColumns _ _) fun columns _ =>
      ensures_marking fun total _ => ensures_marking fun rowid l' => ?_
    rw [update_bind]
    have hopened : ∀ fine, Beyond fine (k, (ms, l))
        ({ k with
            changesBefore := total
            rowidBefore := rowid
            stats := {}
            exhausted := false },
          (ms ++ [.columns statement declared] ++ [.total k.db total] ++ [.rowid k.db rowid],
            l')) := by
      refine fun _ => ⟨⟨rfl, rfl, rfl, rfl, rfl⟩,
        [.columns statement declared, .total k.db total, .rowid k.db rowid], ?_, rfl, fun _ => ?_⟩
      · simp
      · simp [Mark.isFine]
    refine Turn.Ensures.andThen ((stepRow_beyond _).mono (fun _ _ h => h) (fun _ _ h => h)
      fun _ _ h => (hopened false).trans h) ?_
    exact fun _ _ h => ((hopened true).trans h).trans (.still ⟨rfl, rfl, rfl, rfl, rfl⟩)

theorem fetch_beyond (w : Cursor × (List Mark × lam)) :
    (fetch lib.marked w).Ensures Apart (fun _ => Beyond true w) fun _ => Beyond false w := by
  unfold fetch
  rw [read_bind]
  cases w.1.peeked with
  | some row => exact .still ⟨rfl, rfl, rfl, rfl, rfl⟩
  | none => exact Turn.Ensures.andThen (stepRow_beyond w) fun _ _ h => h

section

variable {k : Cursor} {ms : List Mark} {l : lam} {db : Nat}
  {Q : α → Cursor × (List Mark × lam) → Prop} {E : Stop → Cursor × (List Mark × lam) → Prop}

theorem ensures_prepare {rest : List UInt8} {g : Prepared → Move (List Mark × lam) α}
    (h : ∀ r l', (∃ l, (lib.prepare db rest l).1 = r) →
      (g r (k, (ms ++ [.prepared db rest r], l'))).Ensures Apart Q E) :
    ((call (lib.marked.prepare db rest) >>= g) (k, (ms, l))).Ensures Apart Q E :=
  h _ _ ⟨l, rfl⟩

theorem ensures_explain {code : Int} {sql : String} {g : QueryIssue → Move (List Mark × lam) α}
    (h : ∀ issue l', issue.sql = some sql → (g issue (k, (ms, l'))).Ensures Apart Q E) :
    ((call (explain lib.marked db code sql) >>= g) (k, (ms, l))).Ensures Apart Q E := by
  have hsame : (explain lib.marked db code sql (ms, l)).2 =
      (ms, (explain lib.marked db code sql (ms, l)).2.2) :=
    Prod.ext (silent_explain db code sql (ms, l)) rfl
  rw [call_bind, hsame]
  exact h _ _ rfl

end

/-- Nothing but the end of the text stops the search for a statement, and a failure. -/
theorem nextStatement_cuts (left : Nat) (w : Cursor × (List Mark × lam))
    (hleft : w.1.text.length - w.1.offset ≤ left) :
    (nextStatement lib.marked left w).Ensures Apart
      (fun more w' => ∃ cuts, Cutting lib true cuts w w' ∧
        (more = false → w'.1.statement = w.1.statement ∧ w.1.text.length ≤ w'.1.offset) ∧
        (more = true → w'.1.statement.isSome = true ∧ AtLast cuts w'.1))
      fun stop w' => ∃ cuts c, Cutting lib false (cuts ++ [c]) w w' ∧
        w'.1.statement = w.1.statement ∧ c.answer.code ≠ okCode ∧
        ∃ issue, stop = .error (.query issue) ∧ issue.sql = some (c.sql w.1.text) := by
  -- on the bytes that are left: a piece takes one at least, with a statement in it or not
  induction left generalizing w with
  | zero => exact ⟨[], .refl w, fun _ => ⟨rfl, by omega⟩, by simp⟩
  | succ left ih =>
    obtain ⟨k, ms, l⟩ := w
    rw [nextStatement, read_bind]
    split
    · next hend => exact ⟨[], .refl _, fun _ => ⟨rfl, hend⟩, by simp⟩
    · next hoffset =>
      have hlt : k.offset < k.text.length := Nat.lt_of_not_le hoffset
      refine ensures_prepare fun r l' hr => ?_
      have hsql : Text.trim (Text.decodeLossy
          ((k.text.drop k.offset).take (r.taken.getD (k.text.drop k.offset).length))) =
          Cut.sql k.text ⟨k.offset, r⟩ := by
        unfold Cut.sql Cut.stop
        rw [Nat.add_sub_cancel_left]
      dsimp only
      rw [hsql]
      split
      · next hcode =>
        rw [update_bind]
        refine ensures_explain fun issue _ hissue => ?_
        refine ⟨[], ⟨k.offset, r⟩, .single hr hlt rfl rfl ?_ (by simp), rfl, hcode, issue, rfl,
          hissue⟩
        exact (if_neg hcode).symm
      · next hcode =>
        have hok : r.code = okCode := not_not.mp hcode
        have hnext := Cut.next_of_ok k.text (c := ⟨k.offset, r⟩) hok
        have hstep : k.text.length - Cut.next k.text ⟨k.offset, r⟩ ≤ left := by
          have hlt' : k.offset < Cut.next k.text ⟨k.offset, r⟩ :=
            Cut.lt_next (c := ⟨k.offset, r⟩) hlt
          dsimp only at hleft
          omega
        dsimp only at hnext
        rw [update_bind]
        dsimp only
        rw [← hnext]
        cases hst : r.statement with
        | none =>
          -- a piece without a statement is one more cut before the others
          have hcut : ∀ fine, Cutting lib fine [⟨k.offset, r⟩] (k, (ms, l))
              ({ k with offset := Cut.next k.text ⟨k.offset, r⟩ },
                (ms ++ [.prepared k.db (k.text.drop k.offset) r], l')) := fun _ =>
            .single hr hlt rfl rfl rfl fun _ => hok
          refine (ih _ hstep).mono (fun _ _ h => h) ?_ ?_
          · rintro more w' ⟨cuts, hcuts, hfalse, htrue⟩
            refine ⟨_, (hcut true).trans hcuts, hfalse, fun hmore => ?_⟩
            obtain ⟨hsome, hlast⟩ := htrue hmore
            refine ⟨hsome, fun st hst => ?_⟩
            obtain ⟨c, hc, hrest⟩ := hlast st hst
            exact ⟨c, by rw [List.singleton_append, List.getLast?_cons, hc]; rfl, hrest⟩
          · rintro stop w' ⟨cuts, c, hcuts, hrest⟩
            exact ⟨⟨k.offset, r⟩ :: cuts, c, (hcut false).trans hcuts, hrest⟩
        | some statement =>
          refine ⟨[⟨k.offset, r⟩], .single hr hlt rfl rfl rfl fun _ => hok, by simp, fun _ =>
            ⟨rfl, fun st hst' => ⟨_, rfl, hst.trans hst', rfl⟩⟩⟩

/-- The cursor goes on by cuts. It says that there is nothing more only at the end of the text. -/
theorem advance_cuts (w : Cursor × (List Mark × lam)) :
    (advance lib.marked w).Ensures Apart
      (fun more w' => ∃ cuts, Cutting lib true cuts w w' ∧ AtLast cuts w'.1 ∧
        (more = true → w'.1.statement.isSome = true) ∧
        (more = false → w.1.text.length ≤ w'.1.offset))
      fun stop w' => ∃ cuts c, Cutting lib false (cuts ++ [c]) w w' ∧ AtLast (cuts ++ [c]) w'.1 ∧
        (c.answer.code ≠ okCode → ∃ issue, stop = .error (.query issue) ∧
          issue.sql = some (c.sql w.1.text)) := by
  obtain ⟨k, ms, l⟩ := w
  -- the statement before is ended without a cut
  obtain ⟨k', l', hend, hnone, hdb, htext, hoffset⟩ := endStatement_marked lib k ms l
  have hended : ∀ fine, Cutting lib fine [] (k, (ms, l)) (k', (ms, l')) := fun _ =>
    ⟨hdb, htext, hoffset ▸ .refl _, by simp, [], by simp, rfl, by simp⟩
  unfold advance
  rw [bind_of_done hend, read_bind]
  refine Turn.Ensures.andThen ((nextStatement_cuts _ (k', (ms, l')) (Nat.le_refl _)).mono
    (fun _ _ h => h) (fun _ _ h => h) ?_) ?_
  · rintro stop w' ⟨cuts, c, hcuts, hst, -, hissue⟩
    exact ⟨cuts, c, (hended false).trans hcuts, atLast_of_none (hst.trans hnone), fun _ =>
      htext ▸ hissue⟩
  · rintro more w' ⟨cuts, hcuts, hfalse, htrue⟩
    have hcuts : Cutting lib true cuts (k, (ms, l)) w' := (hended true).trans hcuts
    cases more with
    | false =>
      obtain ⟨hst, hover⟩ := hfalse rfl
      exact ⟨cuts, hcuts, atLast_of_none (hst.trans hnone), by simp, fun _ => htext ▸ hover⟩
    | true =>
      obtain ⟨hsome, hlast⟩ := htrue rfl
      obtain ⟨st, hst⟩ := Option.isSome_iff_exists.mp hsome
      dsimp only
      rw [if_pos rfl, read_bind, hst]
      refine Turn.Ensures.andThen
        ((start_beyond st w').mono (fun _ _ h => h) (fun _ _ h => h) ?_) ?_
      · -- the statement was prepared well and did not start
        intro stop w'' hbeyond
        obtain ⟨init, c, rfl⟩ := hlast.exists_append hsome
        exact ⟨init, c, by simpa using (hcuts.mono (by simp)).trans hbeyond.cutting,
          hlast.samePlace hbeyond.1, fun hcode => absurd (hcuts.code_eq_ok (by simp)) hcode⟩
      · intro _ w'' hbeyond
        refine ⟨cuts, by simpa using hcuts.trans hbeyond.cutting, hlast.samePlace hbeyond.1,
          fun _ => ?_, by simp⟩
        rw [hbeyond.1.statement]
        exact hsome

end Cursor
end DatabaseSession.Sqlite
