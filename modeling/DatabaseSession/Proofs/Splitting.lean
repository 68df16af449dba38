import DatabaseSession.Proofs.Cuts

namespace DatabaseSession.Sqlite

open Play Library

variable {lam : Type}

/-- What is prepared of a text ends inside it. -/
def Library.TailsInside (lib : Library lam) : Prop :=
  ∀ db text l n, (lib.prepare db text l).1.taken = some n → n ≤ text.length

/-- The pieces of a text: each inside it, in order, apart from each other, and good but for the
last. -/
structure InPieces (text : List UInt8) (cuts : List Cut) : Prop where
  increasing : cuts.Pairwise fun c d => c.offset < d.offset
  inside : ∀ c ∈ cuts, c.offset < text.length ∧ c.offset ≤ c.stop text ∧ c.stop text ≤ text.length
  apart : cuts.Pairwise fun c d => c.answer.code = okCode ∧ c.stop text ≤ d.offset
  count : cuts.length ≤ text.length

theorem Cuts.inPieces {text : List UInt8} {cuts : List Cut} {o : Nat} (h : Cuts text 0 cuts o)
    (hstop : ∀ c ∈ cuts, c.stop text ≤ text.length) : InPieces text cuts where
  increasing := h.pairwise_offset_lt
  inside c hc := ⟨(h.offset_bounds hc).2, c.le_stop text, hstop c hc⟩
  apart := h.pairwise_ok
  count := by
    have hlength := h.add_length_le
    have ho := h.le_length (Nat.zero_le _)
    omega

theorem Cursor.Cutting.stop_le {lib : Library lam} {fine : Bool} {cuts : List Cut}
    {w w' : Cursor × (List Mark × lam)} (h : Cutting lib fine cuts w w') (hlib : lib.TailsInside)
    {c : Cut} (hc : c ∈ cuts) : c.stop w.1.text ≤ w.1.text.length := by
  obtain ⟨l, hl⟩ := h.answers c hc
  have hlt := (h.path.offset_bounds hc).2
  have hlength : (w.1.text.drop c.offset).length = w.1.text.length - c.offset := List.length_drop
  unfold Cut.stop
  cases htaken : c.answer.taken with
  | none =>
    rw [Option.getD_none]
    omega
  | some n =>
    have := hlib _ _ l n (hl ▸ htaken)
    rw [Option.getD_some]
    omega

namespace Client

open Turn

variable {lib : Library lam} {w₀ : Cursor × (List Mark × lam)} {w w' : Client × (List Mark × lam)}
  {fine fine' : Bool} {cuts : List Cut} {o : Nat}

/-- The client reads a text that was begun at `w₀`, and has come to this place by these cuts. -/
def Reading (lib : Library lam) (w₀ : Cursor × (List Mark × lam)) (fine : Bool) (cuts : List Cut)
    (o : Nat) (w : Client × (List Mark × lam)) : Prop :=
  w.1.db = some w₀.1.db ∧ ∃ k, w.1.cursor = some k ∧ k.offset = o ∧
    Cursor.Cutting lib fine cuts w₀ (k, w.2) ∧ Cursor.AtLast cuts k

namespace Reading

theorem path (h : Reading lib w₀ fine cuts o w) : Cuts w₀.1.text w₀.1.offset cuts o := by
  obtain ⟨-, k, -, rfl, hcuts, -⟩ := h
  exact hcuts.path

theorem preparations_eq (h : Reading lib w₀ fine cuts o w) :
    preparations w.2.1 = preparations w₀.2.1 ++ cuts.map (Cut.mark w₀.1.db w₀.1.text) := by
  obtain ⟨-, k, -, -, hcuts, -⟩ := h
  obtain ⟨new, hnew, hmarks, -⟩ := hcuts.marks
  rw [show w.2.1 = w₀.2.1 ++ new from hnew, preparations_append, hmarks]

theorem code_eq_ok (h : Reading lib w₀ true cuts o w) {c : Cut} (hc : c ∈ cuts) :
    c.answer.code = okCode := by
  obtain ⟨-, k, -, -, hcuts, -⟩ := h
  exact hcuts.code_eq_ok hc

theorem inPieces (h : Reading lib w₀ fine cuts o w) (hlib : lib.TailsInside)
    (hstart : w₀.1.offset = 0) : InPieces w₀.1.text cuts := by
  have hpath := h.path
  rw [hstart] at hpath
  obtain ⟨-, k, -, -, hcuts, -⟩ := h
  exact hpath.inPieces fun c hc => hcuts.stop_le hlib hc

theorem mono (h : Reading lib w₀ fine cuts o w) (hfine : fine' = true → fine = true) :
    Reading lib w₀ fine' cuts o w := by
  obtain ⟨hdb, k, hk, ho, hcuts, hlast⟩ := h
  exact ⟨hdb, k, hk, ho, hcuts.mono hfine, hlast⟩

theorem apart (h : Reading lib w₀ fine cuts o w) (hw : Apart w w') :
    Reading lib w₀ fine cuts o w' := by
  obtain ⟨c, ms, l⟩ := w
  obtain ⟨c', ms', l'⟩ := w'
  obtain ⟨rfl, rfl⟩ := hw
  obtain ⟨hdb, k, hk, ho, hcuts, hlast⟩ := h
  exact ⟨hdb, k, hk, ho, ⟨hcuts.db, hcuts.text, hcuts.path, hcuts.answers, hcuts.marks⟩, hlast⟩

end Reading

theorem ensures_onCursor_of_some {α : Type} {m : Cursor.Move (List Mark × lam) α} {k : Cursor}
    {Q : α → Cursor × (List Mark × lam) → Prop} {E : Stop → Cursor × (List Mark × lam) → Prop}
    (hk : w.1.cursor = some k) (hm : (m (k, w.2)).Ensures Cursor.Apart Q E) :
    (onCursor m w).Ensures Apart
      (fun x w' => w'.1.db = w.1.db ∧ ∃ k', w'.1.cursor = some k' ∧ Q x (k', w'.2))
      fun stop w' => w'.1.db = w.1.db ∧ ∃ k', w'.1.cursor = some k' ∧ E stop (k', w'.2) := by
  have hcursor : w.1.cursor.getD default = k := by rw [hk]; rfl
  refine (ensures_onCursor (hcursor ▸ hm)).mono (fun _ _ h => h) ?_ ?_
  · rintro x w' ⟨hdb, k', hk', -, h⟩
    exact ⟨hdb, k', hk', h⟩
  · rintro stop w' ⟨hdb, k', hk', -, h⟩
    exact ⟨hdb, k', hk', h⟩

theorem fetchRow_reading (h : Reading lib w₀ fine cuts o w) :
    (fetchRow lib.marked w).Ensures Apart (fun _ => Reading lib w₀ fine cuts o)
      fun _ => Reading lib w₀ false cuts o := by
  obtain ⟨hdb, k, hk, rfl, hcuts, hlast⟩ := h
  unfold fetchRow
  rw [read_bind, if_neg (by simp [hk])]
  refine (ensures_onCursor_of_some hk (Cursor.fetch_beyond (k, w.2))).mono (fun _ _ h => h) ?_ ?_
  · rintro _ w' ⟨hdb', k', hk', hbeyond⟩
    refine ⟨hdb'.trans hdb, k', hk', hbeyond.1.offset, ?_, hlast.samePlace hbeyond.1⟩
    simpa using hcuts.trans (hbeyond.mono fun _ => rfl).cutting
  · rintro _ w' ⟨hdb', k', hk', hbeyond⟩
    refine ⟨hdb'.trans hdb, k', hk', hbeyond.1.offset, ?_, hlast.samePlace hbeyond.1⟩
    simpa using (hcuts.mono (by simp)).trans hbeyond.cutting

/-- What a failed cut is told by. -/
def Told (text : List UInt8) (c : Cut) (stop : Stop) : Prop :=
  c.answer.code ≠ okCode →
    ∃ issue, stop = .error (.query issue) ∧ issue.sql = some (c.sql text)

/-- The text was cut up further, and every piece was good. There is nothing more only at its end. -/
def GoneOn (lib : Library lam) (w₀ : Cursor × (List Mark × lam)) (fine : Bool) (cuts : List Cut)
    (more : Bool) (w : Client × (List Mark × lam)) : Prop :=
  ∃ new o, Reading lib w₀ fine (cuts ++ new) o w ∧ (∀ c ∈ new, c.answer.code = okCode) ∧
    (more = true → new ≠ []) ∧ (more = false → w₀.1.text.length ≤ o)

/-- The text was cut up further, to a statement that did not start or a piece that was not good. -/
def HeldUp (lib : Library lam) (w₀ : Cursor × (List Mark × lam)) (cuts : List Cut) (stop : Stop)
    (w : Client × (List Mark × lam)) : Prop :=
  ∃ new c o, Reading lib w₀ false (cuts ++ (new ++ [c])) o w ∧ Told w₀.1.text c stop

theorem atLast_append {new : List Cut} {k : Cursor} (hlast : Cursor.AtLast new k) :
    Cursor.AtLast (cuts ++ new) k := by
  intro st hst
  obtain ⟨c, hc, hrest⟩ := hlast st hst
  obtain ⟨init, rfl⟩ := List.getLast?_eq_some_iff.mp hc
  exact ⟨c, by rw [← List.append_assoc, List.getLast?_concat], hrest⟩

theorem advance_reading {k : Cursor} (hdb : w.1.db = some w₀.1.db) (hk : w.1.cursor = some k)
    (hcuts : Cursor.Cutting lib fine cuts w₀ (k, w.2)) :
    (onCursor (Cursor.advance lib.marked) w).Ensures Apart
      (GoneOn lib w₀ fine cuts) (HeldUp lib w₀ cuts) := by
  have htext : k.text = w₀.1.text := hcuts.text
  refine (ensures_onCursor_of_some hk (Cursor.advance_cuts (k, w.2))).mono (fun _ _ h => h) ?_ ?_
  · rintro more w' ⟨hdb', k', hk', new, hnew, hlast, htrue, hfalse⟩
    refine ⟨new, k'.offset, ⟨hdb'.trans hdb, k', hk', rfl, hcuts.trans (hnew.mono fun _ => rfl),
      atLast_append hlast⟩, fun c hc => hnew.code_eq_ok hc, fun hmore => ?_,
      fun hmore => htext ▸ hfalse hmore⟩
    obtain ⟨init, c, rfl⟩ := hlast.exists_append (htrue hmore)
    simp
  · rintro stop w' ⟨hdb', k', hk', new, c, hnew, hlast, hissue⟩
    exact ⟨new, c, k'.offset, ⟨hdb'.trans hdb, k', hk', rfl, (hcuts.mono (by simp)).trans hnew,
      atLast_append hlast⟩, htext ▸ hissue⟩

theorem nextResult_reading (h : Reading lib w₀ fine cuts o w) :
    (nextResult lib.marked w).Ensures Apart
      (GoneOn lib w₀ fine cuts) (HeldUp lib w₀ cuts) := by
  obtain ⟨hdb, k, hk, -, hcuts, -⟩ := h
  unfold nextResult
  rw [read_bind, if_neg (by simp [hk])]
  exact advance_reading hdb hk hcuts

theorem execute_reading (lib : Library lam) {db : Nat} {sql : String} (params : List Value)
    (hdb : w.1.db = some db) (hsql : '\x00' ∉ sql.toList) :
    ∃ l, (execute lib.marked sql params w).Ensures Apart
      (fun _ w' => ∃ cuts o, Reading lib ({ db, text := Text.utf8 sql, params }, (w.2.1, l)) true
        cuts o w' ∧ (cuts = [] → Text.utf8 sql = []))
      fun stop w' => ∃ cuts c o, Reading lib ({ db, text := Text.utf8 sql, params }, (w.2.1, l))
        false (cuts ++ [c]) o w' ∧ Told (Text.utf8 sql) c stop := by
  obtain ⟨l, hdrop⟩ := dropCursor_marked lib w
  refine ⟨l, ?_⟩
  unfold execute
  rw [read_bind, hdb]
  dsimp only
  rw [bind_of_done hdrop, if_neg (by simpa using hsql), update_bind]
  have hbegun : Cursor.Cutting lib true []
      ({ db, text := Text.utf8 sql, params }, (w.2.1, l))
      ({ db, text := Text.utf8 sql, params }, (w.2.1, l)) := .refl _
  refine Turn.Ensures.andThen ((advance_reading hdb rfl hbegun).mono (fun _ _ h => h)
    (fun _ _ h => h) ?_) ?_
  · rintro stop w' ⟨new, d, o, hreading, htold⟩
    exact ⟨new, d, o, hreading, htold⟩
  · rintro more w' ⟨new, o, hreading, -, htrue, hfalse⟩
    refine ⟨new, o, hreading, ?_⟩
    rintro rfl
    cases more with
    | true => exact absurd rfl (htrue rfl)
    | false =>
      have ho : o = 0 := hreading.path.eq_of_nil
      exact List.eq_nil_of_length_eq_zero (Nat.le_zero.mp (ho ▸ hfalse rfl))

/-- The client is asked for rows and for the next statements, which has these answers.
Interrupters may be called meanwhile and between. -/
inductive ReadsOn (lib : Library lam) (w : Client × lam) :
    List (Except Stop Bool) → Client × lam → Prop where
  | refl : ReadsOn lib w [] w
  | fetch {answers : List (Except Stop Bool)} {x : Except Stop (Option Row)} {w₁ w₂ : Client × lam}
      (h : ReadsOn lib w answers w₁) (hfetch : (fetchRow lib w₁).Plays (Interrupted lib) x w₂) :
      ReadsOn lib w answers w₂
  | next {answers : List (Except Stop Bool)} {x : Except Stop Bool} {w₁ w₂ : Client × lam}
      (h : ReadsOn lib w answers w₁) (hnext : (nextResult lib w₁).Plays (Interrupted lib) x w₂) :
      ReadsOn lib w (answers ++ [x]) w₂
  | interrupt {answers : List (Except Stop Bool)} {w₁ : Client × lam}
      (h : ReadsOn lib w answers w₁) (key : Nat) :
      ReadsOn lib w answers (Client.interrupt lib key w₁)

def goesOn : Except Stop Bool → Bool
  | .ok more => more
  | .error _ => true

/-- However a text is read on, it is cut up further, at least once for every answer but the last
ones. -/
theorem ReadsOn.reading {answers : List (Except Stop Bool)} (h : ReadsOn lib.marked w answers w')
    (hw : Reading lib w₀ false cuts o w) :
    ∃ new o', Reading lib w₀ false (cuts ++ new) o' w' ∧ answers.countP goesOn ≤ new.length ∧
      (.ok false ∈ answers → w₀.1.text.length ≤ o') ∧
      ∀ c ∈ new, c.answer.code ≠ okCode →
        ∃ stop, .error stop ∈ answers ∧ Told w₀.1.text c stop := by
  induction h with
  | refl => exact ⟨[], o, by simpa using hw, by simp, by simp, by simp⟩
  | interrupt _ key ih =>
    obtain ⟨new, o', hreading, hrest⟩ := ih
    exact ⟨new, o', hreading.apart (interrupt_apart key _), hrest⟩
  | @fetch answers x w₁ w₂ _ hfetch ih =>
    obtain ⟨new, o', hreading, hrest⟩ := ih
    have hfares := fares_of_plays (fetchRow_reading hreading) hfetch
    cases x <;> exact ⟨new, o', hfares, hrest⟩
  | @next answers x w₁ w₂ _ hnext ih =>
    obtain ⟨new, o₁, hreading, hcount, hend, htold⟩ := ih
    have hfares := fares_of_plays (nextResult_reading hreading) hnext
    -- cuts only lead on, so the end stays behind once it was reached
    have hlater : ∀ {new' o'}, Reading lib w₀ false (cuts ++ new ++ new') o' w₂ → o₁ ≤ o' := by
      intro new' o' h
      have := (h.path.of_append hreading.path).add_length_le
      omega
    cases x with
    | ok more =>
      obtain ⟨new', o', hreading', hok, htrue, hfalse⟩ := hfares
      refine ⟨new ++ new', o', List.append_assoc .. ▸ hreading', ?_, ?_, ?_⟩
      · have hone : goesOn (.ok more) = true → 0 < new'.length := fun hmore =>
          List.length_pos_iff.mpr (htrue hmore)
        rw [List.countP_append, List.length_append, List.countP_singleton]
        split
        · next hmore =>
          have := hone hmore
          omega
        · omega
      · intro hmem
        rcases List.mem_append.mp hmem with hmem | hmem
        · exact Nat.le_trans (hend hmem) (hlater hreading')
        · exact hfalse (by simpa [eq_comm] using hmem)
      · intro c hc hcode
        rcases List.mem_append.mp hc with hc | hc
        · obtain ⟨stop, hmem, hstop⟩ := htold c hc hcode
          exact ⟨stop, List.mem_append_left _ hmem, hstop⟩
        · exact absurd (hok c hc) hcode
    | error stop =>
      obtain ⟨new', d, o', hreading', hstop⟩ := hfares
      refine ⟨new ++ (new' ++ [d]), o', List.append_assoc .. ▸ hreading', ?_, ?_, ?_⟩
      · simp only [List.countP_append, List.length_append, List.countP_singleton, goesOn, if_true,
          List.length_singleton]
        omega
      · intro hmem
        exact Nat.le_trans (hend (by simpa using hmem)) (hlater hreading')
      · intro c hc hcode
        rcases List.mem_append.mp hc with hc | hc
        · obtain ⟨stop', hmem, hstop'⟩ := htold c hc hcode
          exact ⟨stop', List.mem_append_left _ hmem, hstop'⟩
        · -- only the last cut of a call can have failed
          have hd : c = d := by
            rcases List.mem_append.mp hc with hc | hc
            · have hok := (hreading'.path.of_append hreading.path).pairwise_ok
              exact absurd ((List.pairwise_append.mp hok).2.2 c hc d (by simp)).1 hcode
            · simpa using hc
          exact ⟨stop, by simp, hd ▸ hstop⟩

theorem ReadsOn.of_none {answers : List (Except Stop Bool)} (h : ReadsOn lib.marked w answers w')
    (hw : w.1.cursor = none) :
    w'.1.cursor = none ∧ w'.2.1 = w.2.1 ∧ ∀ x ∈ answers, x = .ok false := by
  induction h with
  | refl => exact ⟨hw, rfl, by simp⟩
  | @interrupt answers w₁ _ key ih =>
    obtain ⟨hnone, hmarks, hrest⟩ := ih
    have hapart : Apart w₁ (Client.interrupt lib.marked key w₁) := interrupt_apart key w₁
    exact ⟨hapart.1 ▸ hnone, hapart.2.trans hmarks, hrest⟩
  | fetch _ hfetch ih =>
    obtain ⟨hnone, hmarks, hrest⟩ := ih
    rw [fetchRow, read_bind, if_pos (by simp [hnone])] at hfetch
    cases hfetch
    exact ⟨hnone, hmarks, hrest⟩
  | next _ hnext ih =>
    obtain ⟨hnone, hmarks, hrest⟩ := ih
    rw [nextResult, read_bind, if_pos (by simp [hnone])] at hnext
    cases hnext
    refine ⟨hnone, hmarks, fun x hx => ?_⟩
    exact (List.mem_append.mp hx).elim (hrest x) List.mem_singleton.mp

/-- At the end of its text the client answers that there is nothing more, and asks for nothing. -/
theorem ReadsOn.of_end {answers : List (Except Stop Bool)} (h : ReadsOn lib.marked w answers w')
    (hw : Reading lib w₀ false cuts o w) (ho : w₀.1.text.length ≤ o) :
    preparations w'.2.1 = preparations w.2.1 ∧ ∀ x ∈ answers, x = .ok false := by
  obtain ⟨new, o', hreading, hcount, -⟩ := h.reading hw
  obtain rfl : new = [] := (hreading.path.of_append hw.path).eq_nil_of_length_le ho
  refine ⟨?_, fun x hx => ?_⟩
  · rw [hreading.preparations_eq, hw.preparations_eq, List.append_nil]
  · have hnone : answers.countP goesOn = 0 := Nat.le_zero.mp hcount
    have hgoes := List.countP_eq_zero.mp hnone x hx
    cases x with
    | ok more =>
      cases more with
      | false => rfl
      | true => exact absurd rfl hgoes
    | error stop => exact absurd rfl hgoes

theorem execute_zeroByte (lib : Library lam) {db : Nat} {sql : String} (params : List Value)
    (hdb : w.1.db = some db) (hsql : '\x00' ∈ sql.toList) :
    ∃ stop c l, execute lib.marked sql params w = .done (.error stop) (c, (w.2.1, l)) ∧
      c.cursor = none := by
  obtain ⟨l, hdrop⟩ := dropCursor_marked lib w
  refine ⟨.error (zeroByteInStatement sql), { w.1 with cursor := none }, l, ?_, rfl⟩
  unfold execute
  rw [read_bind, hdb]
  dsimp only
  rw [bind_of_done hdrop, if_pos (by simpa using hsql)]
  rfl

/-- Where a text is begun it is read from then on, and a cut that failed is told of. -/
theorem reading_of_execute {db : Nat} {sql : String} {params : List Value} {x : Except Stop Unit}
    (hdb : w.1.db = some db) (hsql : '\x00' ∉ sql.toList)
    (h : (execute lib.marked sql params w).Plays (Interrupted lib.marked) x w') :
    ∃ l cuts o, Reading lib ({ db, text := Text.utf8 sql, params }, (w.2.1, l)) false cuts o w' ∧
      ∀ c ∈ cuts, c.answer.code ≠ okCode → ∃ stop, x = .error stop ∧
        Told (Text.utf8 sql) c stop := by
  obtain ⟨l, hexecute⟩ := execute_reading lib params hdb hsql
  have hfares := fares_of_plays hexecute h
  cases x with
  | ok _ =>
    obtain ⟨cuts, o, hreading, -⟩ := hfares
    exact ⟨l, cuts, o, hreading.mono (by simp), fun c hc hcode =>
      absurd (hreading.code_eq_ok hc) hcode⟩
  | error stop =>
    obtain ⟨cuts, d, o, hreading, htold⟩ := hfares
    refine ⟨l, cuts ++ [d], o, hreading, fun c hc hcode => ⟨stop, rfl, ?_⟩⟩
    rcases List.mem_append.mp hc with hc | hc
    · have hok := (List.pairwise_append.mp hreading.path.pairwise_ok).2.2 c hc d (by simp)
      exact absurd hok.1 hcode
    · rwa [List.mem_singleton.mp hc]

/-- A text was begun at `w`, which came to `x`, and was read on, with these answers. These are the
cuts made in it, and here it goes on. -/
structure SplitUp (lib : Library lam) (db : Nat) (sql : String) (w : Client × (List Mark × lam))
    (x : Except Stop Unit) (answers : List (Except Stop Bool)) (w' : Client × (List Mark × lam))
    (cuts : List Cut) (o : Nat) : Prop where
  marks : preparations w'.2.1 = preparations w.2.1 ++ cuts.map (Cut.mark db (Text.utf8 sql))
  path : Cuts (Text.utf8 sql) 0 cuts o
  pieces : InPieces (Text.utf8 sql) cuts
  zeroByte : '\x00' ∈ sql.toList → cuts = []
  progress : answers.countP goesOn ≤ cuts.length
  finished : '\x00' ∉ sql.toList → .ok false ∈ answers → o = (Text.utf8 sql).length
  /-- The current statement has the text of its own piece. -/
  current : ∀ k st, w'.1.cursor = some k → k.statement = some st → ∃ c, cuts.getLast? = some c ∧
    c.answer.statement = some st ∧ k.sql = c.sql (Text.utf8 sql)
  /-- A failure is told with the text of its piece. -/
  told : ∀ c ∈ cuts, c.answer.code ≠ okCode → ∃ issue, issue.sql = some (c.sql (Text.utf8 sql)) ∧
    (x = .error (.error (.query issue)) ∨ .error (.error (.query issue)) ∈ answers)
  /-- After a failure, or at the end of the text, there is nothing more. -/
  closed : (.ok false ∈ answers ∨ ∃ c ∈ cuts, c.answer.code ≠ okCode) →
    ∀ {further : List (Except Stop Bool)} {w'' : Client × (List Mark × lam)},
      ReadsOn lib.marked w' further w'' →
      preparations w''.2.1 = preparations w'.2.1 ∧ ∀ y ∈ further, y = .ok false

section

variable {db : Nat} {sql : String} {params : List Value} {w₁ : Client × (List Mark × lam)}
  {x : Except Stop Unit} {answers : List (Except Stop Bool)}

theorem splitUp_of_zeroByte (hdb : w.1.db = some db) (hsql : '\x00' ∈ sql.toList)
    (hbegin : (execute lib.marked sql params w).Plays (Interrupted lib.marked) x w₁)
    (hreads : ReadsOn lib.marked w₁ answers w') : SplitUp lib db sql w x answers w' [] 0 := by
  obtain ⟨stop, c, l, hfails, hnone⟩ := execute_zeroByte lib params hdb hsql
  rw [hfails] at hbegin
  cases hbegin
  obtain ⟨hnone', hmarks, hover⟩ := hreads.of_none hnone
  have hcount : answers.countP goesOn = 0 := List.countP_eq_zero.mpr fun y hy => by
    rw [hover y hy]
    decide
  refine ⟨?_, .refl 0, ⟨.nil, by simp, .nil, Nat.zero_le _⟩, fun _ => rfl, Nat.le_of_eq hcount,
    fun h => absurd hsql h, ?_, by simp, ?_⟩
  · rw [hmarks, List.map_nil, List.append_nil]
  · intro k st hk
    rw [hnone'] at hk
    cases hk
  · intro _ further w'' hfurther
    obtain ⟨-, hmarks', hover'⟩ := hfurther.of_none hnone'
    exact ⟨by rw [hmarks'], hover'⟩

theorem exists_splitUp (hlib : lib.TailsInside) (hdb : w.1.db = some db)
    (hsql : '\x00' ∉ sql.toList)
    (hbegin : (execute lib.marked sql params w).Plays (Interrupted lib.marked) x w₁)
    (hreads : ReadsOn lib.marked w₁ answers w') :
    ∃ cuts o, SplitUp lib db sql w x answers w' cuts o := by
  obtain ⟨l, cuts, o, hreading, htold⟩ := reading_of_execute hdb hsql hbegin
  obtain ⟨new, o', hreading', hcount, hend, htold'⟩ := hreads.reading hreading
  have hpath : Cuts (Text.utf8 sql) 0 (cuts ++ new) o' := hreading'.path
  refine ⟨cuts ++ new, o', hreading'.preparations_eq, hpath, hreading'.inPieces hlib rfl,
    fun h => absurd h hsql, ?_, ?_, ?_, ?_, ?_⟩
  · rw [List.length_append]
    omega
  · exact fun _ hmem => Nat.le_antisymm (hpath.le_length (Nat.zero_le _)) (hend hmem)
  · intro k st hk hst
    obtain ⟨-, k', hk', -, hcuts, hlast⟩ := hreading'
    cases hk.symm.trans hk'
    obtain ⟨c, hc, hcst, hcsql⟩ := hlast st hst
    have htext : k.text = Text.utf8 sql := hcuts.text
    exact ⟨c, hc, hcst, htext ▸ hcsql⟩
  · intro c hc hcode
    rcases List.mem_append.mp hc with hc | hc
    · obtain ⟨stop, hx, hstop⟩ := htold c hc hcode
      obtain ⟨issue, rfl, hissue⟩ := hstop hcode
      exact ⟨issue, hissue, .inl hx⟩
    · obtain ⟨stop, hmem, hstop⟩ := htold' c hc hcode
      obtain ⟨issue, rfl, hissue⟩ := hstop hcode
      exact ⟨issue, hissue, .inr hmem⟩
  · intro hover further w'' hfurther
    refine hfurther.of_end hreading' ?_
    rcases hover with hmem | ⟨c, hc, hcode⟩
    · exact hend hmem
    · exact hpath.length_le_of_failed hc hcode

end

/-- Whatever its library makes of a text, it is cut up piece by piece from its first byte on, and
every byte is at most once where a piece begins. The last piece ends the text, or fails; from then
on there is nothing more. -/
theorem text_split (hlib : lib.TailsInside) {db : Nat} {sql : String} {params : List Value}
    {w w₁ w' : Client × (List Mark × lam)} {x : Except Stop Unit}
    {answers : List (Except Stop Bool)}
    (hdb : w.1.db = some db)
    (hbegin : (execute lib.marked sql params w).Plays (Interrupted lib.marked) x w₁)
    (hreads : ReadsOn lib.marked w₁ answers w') :
    ∃ cuts o, SplitUp lib db sql w x answers w' cuts o := by
  by_cases hsql : '\x00' ∈ sql.toList
  · exact ⟨[], 0, splitUp_of_zeroByte hdb hsql hbegin hreads⟩
  · exact exists_splitUp hlib hdb hsql hbegin hreads

namespace Stalled

open Rehearsal Recount

theorem engine_tailsInside : Engine.library.TailsInside := by
  intro db text w n hn
  have hsegment : Engine.segmentLength text ≤ text.length := Nat.min_le_right _ _
  have hbind : ∀ {α β : Type} (x : Engine.Act α) (f : α → Engine.Act β) (w : World),
      (x >>= f) w = f (x w).1 (x w).2 := fun _ _ _ => rfl
  change (Engine.prepare db text w).1.taken = some n at hn
  unfold Engine.prepare at hn
  rw [hbind] at hn
  split at hn
  · cases hn
    exact hsegment
  · rw [hbind] at hn
    generalize Engine.takeCompiled _ _ = found at hn
    obtain ⟨script, rest⟩ := found
    -- what is taken does not depend on how the preparing goes
    have htaken : some n = some (Engine.segmentLength text) ∨
        ∃ k : Option Nat, some n = k.map (min · text.length) := by
      dsimp only at hn
      rw [hbind] at hn
      cases htail : script.tail with
      | none =>
        rw [htail] at hn
        left
        split at hn
        · exact hn.symm
        · rw [hbind] at hn
          split at hn <;> exact hn.symm
      | some k =>
        rw [htail] at hn
        refine .inr ⟨k, ?_⟩
        split at hn
        · exact hn.symm
        · rw [hbind] at hn
          split at hn <;> exact hn.symm
    obtain hn | ⟨k, hn⟩ := htaken
    · cases hn
      exact hsegment
    · obtain ⟨m, -, rfl⟩ := Option.map_eq_some_iff.mp hn.symm
      exact Nat.min_le_right _ _

/-- A client whose library takes none of one text, and finds an error in another. -/
def opened : Client × (List Mark × World) :=
  lived
    { engine := Engine.initial { statements := [
        { sql := "A", tail := some (some 0) }, { sql := "B", preparing := { code := 1 } }] } }
    [.openBase { path := "a.db", name := "a" }]

def begun : Client × (List Mark × World) :=
  after (execute Engine.library.marked "A;B;C" [] opened)

def stalled : Client × (List Mark × World) := after (nextResult Engine.library.marked begun)

def spent : Client × (List Mark × World) := after (nextResult Engine.library.marked stalled)

/-- The first piece is empty and the text goes on a byte further; the third fails, and what is left
of the text is not looked at. -/
theorem text_split_stalled :
    Engine.library.TailsInside ∧ opened.1.db = some 1 ∧
      ∃ stop cuts, ReadsOn Engine.library.marked begun [.error stop] stalled ∧
        preparations stalled.2.1 =
          preparations opened.2.1 ++ cuts.map (Cut.mark 1 (Text.utf8 "A;B;C")) ∧
        cuts.length = 3 ∧ InPieces (Text.utf8 "A;B;C") cuts ∧
        ReadsOn Engine.library.marked stalled [.ok false] spent ∧
        preparations spent.2.1 = preparations stalled.2.1 := by
  have hdb : opened.1.db = some 1 := by decide +kernel
  have hwell : ends (fun x => x.isOk) (execute Engine.library.marked "A;B;C" [] opened) = true := by
    decide +kernel
  have hfails : ends (fun x => !x.isOk) (nextResult Engine.library.marked begun) = true := by
    decide +kernel
  have hover : ends (fun x => x.isOk) (nextResult Engine.library.marked stalled) = true := by
    decide +kernel
  obtain ⟨x, -, hbegin⟩ := plays_of_ends hwell
  obtain ⟨y, hy, hnext⟩ := plays_of_ends hfails
  obtain ⟨z, -, hlast⟩ := plays_of_ends hover
  have hreads : ReadsOn Engine.library.marked begun [y] stalled := ReadsOn.refl.next hnext
  have hfurther : ReadsOn Engine.library.marked stalled [z] spent := ReadsOn.refl.next hlast
  obtain ⟨cuts, o, hsplit⟩ := text_split engine_tailsInside hdb hbegin hreads
  have hmarks := hsplit.marks
  -- three texts were prepared since, and one of them could not be
  have hlength : cuts.length = 3 := by
    have hcount := congrArg List.length hmarks
    rw [List.length_append, List.length_map] at hcount
    have hbefore : (preparations opened.2.1).length = 1 := by decide +kernel
    have hafter : (preparations stalled.2.1).length = 4 := by decide +kernel
    omega
  have hfailed : ∃ c ∈ cuts, c.answer.code ≠ okCode := by
    have hall : (preparations stalled.2.1).all Mark.isFine = false := by decide +kernel
    have hbefore : (preparations opened.2.1).all Mark.isFine = true := by decide +kernel
    rw [hmarks, List.all_append, hbefore, Bool.true_and, List.all_eq_false] at hall
    obtain ⟨m, hm, hfine⟩ := hall
    obtain ⟨c, hc, rfl⟩ := List.mem_map.mp hm
    exact ⟨c, hc, by simpa [Cut.mark, Mark.isFine] using hfine⟩
  obtain ⟨hsame, hall⟩ := hsplit.closed (.inr hfailed) hfurther
  cases y with
  | ok _ => cases hy
  | error stop =>
    exact ⟨engine_tailsInside, hdb, stop, cuts, hreads, hmarks, hlength, hsplit.pieces,
      hall z (by simp) ▸ hfurther, hsame⟩

end Stalled
end Client
end DatabaseSession.Sqlite
