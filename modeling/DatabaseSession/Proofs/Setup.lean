import DatabaseSession.Proofs.Attaching
import DatabaseSession.Proofs.Splitting

namespace DatabaseSession

namespace Text

/-- A token of a statement text: a word of letters, or a literal by its value. -/
inductive Token where
  | word (letters : List Char)
  | literal (value : List Char)
  deriving DecidableEq

/-- The token that begins with this character, and what follows it. -/
def scanToken (c : Char) (rest : List Char) : Option (Token × List Char) :=
  if c = '\'' then (scanLiteral rest).map fun r => (.literal r.1, r.2)
  else if c.isAlpha then
    some (.word (c :: rest.takeWhile Char.isAlpha), rest.dropWhile Char.isAlpha)
  else none

theorem length_scanLiteral_le {cs value rest : List Char}
    (h : scanLiteral cs = some (value, rest)) :
    rest.length ≤ cs.length := by
  fun_induction scanLiteral cs generalizing value rest with
  | case1 => cases h
  | case2 cs ih =>
    obtain ⟨⟨v, r⟩, hr, hv⟩ := Option.map_eq_some_iff.mp h
    cases hv
    have := ih hr
    simp only [List.length_cons]
    omega
  | case3 cs =>
    cases h
    simp
  | case4 c cs _ _ ih =>
    obtain ⟨⟨v, r⟩, hr, hv⟩ := Option.map_eq_some_iff.mp h
    cases hv
    have := ih hr
    simp only [List.length_cons]
    omega

theorem length_scanToken_le {c : Char} {cs rest : List Char} {t : Token}
    (h : scanToken c cs = some (t, rest)) : rest.length ≤ cs.length := by
  unfold scanToken at h
  split at h
  · obtain ⟨⟨v, r⟩, hr, hv⟩ := Option.map_eq_some_iff.mp h
    cases hv
    exact length_scanLiteral_le hr
  · split at h
    · cases h
      exact List.length_dropWhile_le ..
    · cases h

/-- The tokens of a text, if it is made of words and literals with blanks around them. -/
def tokens : List Char → Option (List Token)
  | [] => some []
  | c :: cs =>
    if isBlank c then tokens cs
    else
      match _h : scanToken c cs with
      | none => none
      | some (t, rest) => (tokens rest).map (t :: ·)
termination_by cs => cs.length
decreasing_by
  · simp
  · have := length_scanToken_le _h
    simp only [List.length_cons]
    omega

theorem tokens_blank {c : Char} (hc : isBlank c = true) (cs : List Char) :
    tokens (c :: cs) = tokens cs := by
  rw [tokens.eq_def]
  exact if_pos hc

theorem tokens_cons {c : Char} {cs rest : List Char} {t : Token} (hc : isBlank c = false)
    (h : scanToken c cs = some (t, rest)) : tokens (c :: cs) = (tokens rest).map (t :: ·) := by
  rw [tokens.eq_def]
  dsimp only
  rw [if_neg (by simp [hc])]
  split
  · next hnone =>
    rw [h] at hnone
    cases hnone
  · next hsome =>
    rw [h] at hsome
    cases hsome
    rfl

theorem tokens_word {c : Char} {letters rest : List Char} (hc : c.isAlpha = true)
    (hquote : c ≠ '\'') (hblank : isBlank c = false)
    (hletters : letters.all Char.isAlpha = true) (hrest : ∀ d ∈ rest.head?, d.isAlpha = false) :
    tokens (c :: (letters ++ rest)) = (tokens rest).map (.word (c :: letters) :: ·) := by
  have hstop : rest.takeWhile Char.isAlpha = [] ∧ rest.dropWhile Char.isAlpha = rest := by
    cases rest with
    | nil => exact ⟨rfl, rfl⟩
    | cons d rest => simp [hrest d rfl]
  have hall := List.all_eq_true.mp hletters
  refine tokens_cons hblank ?_
  rw [scanToken, if_neg hquote, if_pos hc, List.takeWhile_append_of_pos hall,
    List.dropWhile_append_of_pos hall, hstop.1, hstop.2, List.append_nil]

/-- A literal ends at a quote that no other quote follows. -/
theorem tokens_literal (value : List Char) {rest : List Char} (h : rest.head? ≠ some '\'') :
    tokens ('\'' :: (doubleQuotes value ++ '\'' :: rest)) =
      (tokens rest).map (.literal value :: ·) := by
  refine tokens_cons (by decide) ?_
  rw [scanToken, if_pos rfl, scanLiteral_doubleQuotes value rest h]
  rfl

end Text

namespace Sqlite

open Play Library Text

variable {lam : Type}

theorem toList_attachStatement (d : Database) :
    (Layout.attachStatement d).toList =
      'A' :: (['T', 'T', 'A', 'C', 'H'] ++ ' ' :: '\'' :: (doubleQuotes d.path.toList ++ '\'' ::
        ' ' :: 'A' :: (['S'] ++ ' ' :: '\'' :: (doubleQuotes d.name.toList ++ ['\''])))) := by
  simp [Layout.attachStatement, literal]

/-- Whatever the path and the name are, they are read as two literals and nothing else. -/
theorem tokens_attachStatement (d : Database) :
    tokens (Layout.attachStatement d).toList =
      some [.word "ATTACH".toList, .literal d.path.toList, .word "AS".toList,
        .literal d.name.toList] := by
  have hspace : isBlank ' ' = true := by decide
  rw [toList_attachStatement,
    tokens_word (by decide) (by decide) (by decide) (by decide) (by simp),
    tokens_blank hspace, tokens_literal _ (by simp), tokens_blank hspace,
    tokens_word (by decide) (by decide) (by decide) (by decide) (by simp),
    tokens_blank hspace, tokens_literal _ (by simp), tokens.eq_def]
  rfl

/-- The text was handed over from its first byte on, with these answers: to its end and without a
failure, or not. -/
def Sent (db : Nat) (whole : Bool) (sql : String) (new : List Mark) : Prop :=
  '\x00' ∉ sql.toList ∧ ∃ cuts o, cuts ≠ [] ∧ Cuts (Text.utf8 sql) 0 cuts o ∧
    preparations new = cuts.map (Cut.mark db (Text.utf8 sql)) ∧
    (whole = true → o = (Text.utf8 sql).length ∧ ∀ m ∈ new, m.isFine = true)

/-- Texts are run in order, up to one that fails. A text with a zero byte fails before it is handed
over. -/
inductive RunInOrder (db : Nat) (texts : List String) : Except Stop Unit → List Mark → Prop where
  | whole {runs : List (List Mark)} (h : List.Forall₂ (Sent db true) texts runs) :
      RunInOrder db texts (.ok ()) runs.flatten
  | broken {before after : List String} {sql : String} {runs : List (List Mark)} {last : List Mark}
      {stop : Stop} (h : texts = before ++ sql :: after)
      (hbefore : List.Forall₂ (Sent db true) before runs)
      (hlast : if '\x00' ∈ sql.toList then last = [] else Sent db false sql last) :
      RunInOrder db texts (.error stop) (runs.flatten ++ last)

theorem RunInOrder.cons {db : Nat} {sql : String} {texts : List String} {run new : List Mark}
    {x : Except Stop Unit} (hrun : Sent db true sql run) (h : RunInOrder db texts x new) :
    RunInOrder db (sql :: texts) x (run ++ new) := by
  cases h with
  | @whole runs h =>
    have hall : RunInOrder db (sql :: texts) (.ok ()) (run :: runs).flatten :=
      .whole (.cons hrun h)
    simpa using hall
  | @broken before after sql' runs last stop h hbefore hlast =>
    have hall : RunInOrder db (sql :: texts) (.error stop) ((run :: runs).flatten ++ last) :=
      .broken (by rw [h]; rfl) (.cons hrun hbefore) hlast
    simpa using hall

theorem RunInOrder.nil (db : Nat) : RunInOrder db [] (.ok ()) [] :=
  @RunInOrder.whole db [] [] .nil

theorem RunInOrder.head {db : Nat} {sql : String} {last : List Mark} (stop : Stop)
    (h : if '\x00' ∈ sql.toList then last = [] else Sent db false sql last)
    (texts : List String) : RunInOrder db (sql :: texts) (.error stop) last :=
  @RunInOrder.broken db (sql :: texts) [] texts sql [] last stop rfl .nil h

namespace Client

open Turn

variable {lib : Library lam} {w w' : Client × (List Mark × lam)}
  {w₀ : Cursor × (List Mark × lam)} {fine : Bool}

/-- A text is being read that was begun at `w₀` and was not empty. -/
def Underway (lib : Library lam) (w₀ : Cursor × (List Mark × lam)) (fine : Bool)
    (w : Client × (List Mark × lam)) : Prop :=
  ∃ cuts o, cuts ≠ [] ∧ Reading lib w₀ fine cuts o w

def ReadOut (lib : Library lam) (w₀ : Cursor × (List Mark × lam))
    (w : Client × (List Mark × lam)) : Prop :=
  ∃ cuts o, cuts ≠ [] ∧ Reading lib w₀ true cuts o w ∧ w₀.1.text.length ≤ o

theorem fetchRow_underway (w : Client × (List Mark × lam)) (h : Underway lib w₀ true w) :
    (fetchRow lib.marked w).Ensures Apart (fun _ => Underway lib w₀ true)
      fun _ => Underway lib w₀ false := by
  obtain ⟨cuts, o, hne, hreading⟩ := h
  exact (fetchRow_reading hreading).mono (fun _ _ h => h) (fun _ _ h => ⟨cuts, o, hne, h⟩)
    fun _ _ h => ⟨cuts, o, hne, h⟩

theorem nextResult_underway (w : Client × (List Mark × lam)) (h : Underway lib w₀ true w) :
    (nextResult lib.marked w).Ensures Apart
      (fun more w' => (more = true → Underway lib w₀ true w') ∧ (more = false → ReadOut lib w₀ w'))
      fun _ => Underway lib w₀ false := by
  obtain ⟨cuts, o, hne, hreading⟩ := h
  refine (nextResult_reading hreading).mono (fun _ _ h => h) ?_ ?_
  · rintro more w' ⟨new, o', hreading', -, -, hfalse⟩
    have hne' : cuts ++ new ≠ [] := by simp [hne]
    exact ⟨fun _ => ⟨_, o', hne', hreading'⟩, fun hmore => ⟨_, o', hne', hreading', hfalse hmore⟩⟩
  · rintro stop w' ⟨new, c, o', hreading', -⟩
    exact ⟨_, o', by simp, hreading'⟩

theorem readOut_underway (patience : Nat) (h : Underway lib w₀ true w) :
    (Backend.readOut (fetchRow lib.marked) (nextResult lib.marked) patience w).Ensures Apart
      (fun _ => ReadOut lib w₀) fun _ => Underway lib w₀ false := by
  refine Backend.ensures_readOut fetchRow_underway nextResult_underway ?_ patience h
  rintro w ⟨cuts, o, hne, hreading⟩
  exact ⟨cuts, o, hne, hreading.mono (by simp)⟩

theorem Reading.exists_marks {cuts : List Cut} {o : Nat} (h : Reading lib w₀ fine cuts o w) :
    ∃ new, w.2.1 = w₀.2.1 ++ new ∧ preparations new = cuts.map (Cut.mark w₀.1.db w₀.1.text) ∧
      (fine = true → ∀ m ∈ new, m.isFine = true) := by
  obtain ⟨-, k, -, -, hcuts, -⟩ := h
  exact hcuts.marks

theorem runOut_sent (patience : Nat) {sql : String} (hsql : Text.utf8 sql ≠ []) {db : Nat}
    (hdb : w.1.db = some db) :
    (runOut lib.marked patience sql w).Ensures Apart
      (fun _ w' => w'.1.db = some db ∧ ∃ new, w'.2.1 = w.2.1 ++ new ∧ Sent db true sql new)
      fun _ w' => ∃ new, w'.2.1 = w.2.1 ++ new ∧
        if '\x00' ∈ sql.toList then new = [] else Sent db false sql new := by
  by_cases hzero : '\x00' ∈ sql.toList
  · obtain ⟨stop, c, l, hfails, -⟩ := execute_zeroByte lib [] hdb hzero
    have hrun : runOut lib.marked patience sql w = .done (.error stop) (c, (w.2.1, l)) := by
      change (execute lib.marked sql [] w).andThen _ = _
      rw [hfails]
      rfl
    rw [hrun]
    exact ⟨[], by simp, by rw [if_pos hzero]⟩
  · obtain ⟨l, hexecute⟩ := execute_reading lib [] hdb hzero
    -- a text that fails on the way was sent up to there
    have hsent : ∀ w', Underway lib ({ db, text := Text.utf8 sql, params := [] }, (w.2.1, l)) false
        w' → ∃ new, w'.2.1 = w.2.1 ++ new ∧
          if '\x00' ∈ sql.toList then new = [] else Sent db false sql new := by
      rintro w' ⟨cuts, o, hne, hreading⟩
      obtain ⟨new, hnew, hcuts, -⟩ := hreading.exists_marks
      refine ⟨new, hnew, ?_⟩
      rw [if_neg hzero]
      exact ⟨hzero, cuts, o, hne, hreading.path, hcuts, by simp⟩
    refine Ensures.andThen (hexecute.mono (fun _ _ h => h) (fun _ _ h => h) ?_) ?_
    · rintro stop w' ⟨cuts, c, o, hreading, -⟩
      exact hsent w' ⟨_, o, by simp, hreading⟩
    · rintro _ w₁ ⟨cuts, o, hreading, hempty⟩
      refine Ensures.andThen ((readOut_underway patience ⟨cuts, o, fun h => hsql (hempty h),
        hreading⟩).mono (fun _ _ h => h) (fun _ _ h => h) fun _ w' h => hsent w' h) ?_
      rintro _ w₂ ⟨cuts, o, hne, hreading, hover⟩
      obtain ⟨new, hnew, hcuts, hfine⟩ := hreading.exists_marks
      obtain ⟨l', hdrop⟩ := dropCursor_marked lib w₂
      dsimp only
      rw [hdrop]
      have hpath : Cuts (Text.utf8 sql) 0 cuts o := hreading.path
      refine ⟨hreading.1, new, hnew, hzero, cuts, o, hne, hpath, hcuts, fun _ => ?_⟩
      exact ⟨Nat.le_antisymm (hpath.le_length (Nat.zero_le _)) hover, hfine rfl⟩

theorem forM_runInOrder (patience : Nat) {texts : List String}
    (htexts : ∀ sql ∈ texts, Text.utf8 sql ≠ []) {db : Nat} (hdb : w.1.db = some db) :
    (texts.forM (runOut lib.marked patience) w).Ensures Apart
      (fun _ w' => ∃ new, w'.2.1 = w.2.1 ++ new ∧ RunInOrder db texts (.ok ()) new)
      fun stop w' => ∃ new, w'.2.1 = w.2.1 ++ new ∧ RunInOrder db texts (.error stop) new := by
  induction texts generalizing w with
  | nil => exact ⟨[], by simp, .nil db⟩
  | cons sql texts ih =>
    refine Ensures.andThen ((runOut_sent patience (htexts sql (by simp)) hdb).mono (fun _ _ h => h)
      (fun _ _ h => h) ?_) ?_
    · rintro stop w₁ ⟨new, hnew, hlast⟩
      exact ⟨new, hnew, .head stop hlast texts⟩
    · rintro _ w₁ ⟨hdb₁, run, hrun, hsent⟩
      refine (ih (fun sql h => htexts sql (by simp [h])) hdb₁).mono (fun _ _ h => h) ?_ ?_
      · rintro _ w₂ ⟨new, hnew, hrest⟩
        exact ⟨run ++ new, by rw [hnew, hrun, List.append_assoc], hrest.cons hsent⟩
      · rintro _ w₂ ⟨new, hnew, hrest⟩
        exact ⟨run ++ new, by rw [hnew, hrun, List.append_assoc], hrest.cons hsent⟩

theorem letGo_marked (lib : Library lam) (w : Client × (List Mark × lam)) :
    ∃ c l, letGo lib.marked w = .done (.ok ()) (c, (w.2.1, l)) := by
  obtain ⟨l, hdrop⟩ := dropCursor_marked lib w
  rw [letGo_of_dropCursor hdrop]
  cases w.1.db <;> exact ⟨_, _, rfl⟩

/-- What the texts come to on this handle; without one nothing is handed over. -/
def SetUp (handle : Option Nat) (texts : List String) (x : Except Stop Unit) (new : List Mark) :
    Prop :=
  (∀ db, handle = some db → RunInOrder db texts x new) ∧
    (handle = none → new = [] ∧ (x = .ok () → texts = []))

theorem forM_setUp (lib : Library lam) (patience : Nat) {texts : List String}
    (htexts : ∀ sql ∈ texts, Text.utf8 sql ≠ []) (w : Client × (List Mark × lam)) :
    (texts.forM (runOut lib.marked patience) w).Ensures Apart
      (fun _ w' => ∃ new, w'.2.1 = w.2.1 ++ new ∧ SetUp w.1.db texts (.ok ()) new)
      fun stop w' => ∃ new, w'.2.1 = w.2.1 ++ new ∧ SetUp w.1.db texts (.error stop) new := by
  cases hdb : w.1.db with
  | some db =>
    refine (forM_runInOrder patience htexts hdb).mono (fun _ _ h => h) ?_ ?_
    · rintro _ w' ⟨new, hnew, hruns⟩
      exact ⟨new, hnew, by rintro _ ⟨⟩; exact hruns, by simp⟩
    · rintro stop w' ⟨new, hnew, hruns⟩
      exact ⟨new, hnew, by rintro _ ⟨⟩; exact hruns, by simp⟩
  | none =>
    cases texts with
    | nil => exact ⟨[], by simp, by simp, fun _ => ⟨rfl, fun _ => rfl⟩⟩
    | cons sql texts =>
      have hfails : execute lib.marked sql [] w =
          .done (.error (.error (.unconnected .storage))) w := by
        unfold execute
        rw [read_bind, hdb]
        rfl
      have hrun : (sql :: texts).forM (runOut lib.marked patience) w =
          .done (.error (.error (.unconnected .storage))) w := by
        change ((execute lib.marked sql [] w).andThen _).andThen _ = _
        rw [hfails]
        rfl
      rw [hrun]
      exact ⟨[], by simp, by simp, fun _ => ⟨rfl, by simp⟩⟩

/-- A fresh handle is set up; where that fails it is closed again, which leaves no mark. -/
theorem setUpHandle_setUp (patience : Nat) (l : Layout) (handle : Option Nat)
    (w : Client × (List Mark × lam)) :
    (setUpHandle lib.marked patience l handle w).Ensures Apart
      (fun _ w' => ∃ new, w'.2.1 = w.2.1 ++ new ∧ SetUp handle l.setupStatements (.ok ()) new)
      fun stop w' => ∃ new, w'.2.1 = w.2.1 ++ new ∧
        SetUp handle l.setupStatements (.error stop) new := by
  have hrun := forM_setUp lib patience (utf8_setupStatement_ne_nil l)
    ({ w.1 with db := handle, target := handle }, w.2)
  rw [setUpHandle, update_bind]
  refine Ensures.andThen (hrun.attempted.mono (fun _ _ h => h) (fun _ _ h => h)
    fun _ _ h => h.2) ?_
  rintro (e | _) w' hw'
  · obtain ⟨c, l', hgone⟩ := letGo_marked lib w'
    dsimp only
    rw [bind_of_done hgone]
    exact hw'
  · exact hw'

theorem silent_openFailure (code : Int) (handle : Option Nat) :
    Cursor.Silent (openFailure lib.marked code handle) := by
  cases handle with
  | none => exact Cursor.silent_pure _
  | some db =>
    exact (Cursor.silent_unmarked _).bind fun _ => (Cursor.silent_unmarked _).bind fun _ =>
      Cursor.silent_pure _

/-- What comes of an opening: if the library yields a file, its handle is set up. -/
def Outcome (lib : Library lam) (l : Layout) (l₀ : lam) (x : Except Stop Unit) (new : List Mark) :
    Prop :=
  if '\x00' ∉ l.path.toList ∧ (lib.openFile l.path l.flags.toWord l₀).1.1 = okCode then
    SetUp (lib.openFile l.path l.flags.toWord l₀).1.2 l.setupStatements x new
  else new = [] ∧ x ≠ .ok ()

theorem openLayout_outcome (patience : Nat) (l : Layout) {c₀ : Client} {l₀ : lam}
    (hgone : letGo lib.marked w = .done (.ok ()) (c₀, (w.2.1, l₀))) :
    (openLayout lib.marked patience l w).Ensures Apart
      (fun _ w' => ∃ new, w'.2.1 = w.2.1 ++ new ∧ Outcome lib l l₀ (.ok ()) new)
      fun stop w' => ∃ new, w'.2.1 = w.2.1 ++ new ∧ Outcome lib l l₀ (.error stop) new := by
  unfold openLayout
  rw [bind_of_done hgone]
  dsimp only
  split
  · next hpath =>
    have hzero : ¬('\x00' ∉ l.path.toList ∧
        (lib.openFile l.path l.flags.toWord l₀).1.1 = okCode) := fun h =>
      h.1 (by simpa using hpath)
    exact ⟨[], by simp, by rw [Outcome, if_neg hzero]; exact ⟨rfl, by simp⟩⟩
  · next hpath =>
    have hclean : '\x00' ∉ l.path.toList := by simpa using hpath
    rw [call_bind]
    cases hopen : lib.openFile l.path l.flags.toWord l₀ with
    | mk r x =>
      obtain ⟨code, handle⟩ := r
      have hcall : lib.marked.openFile l.path l.flags.toWord (w.2.1, l₀) =
          ((code, handle), (w.2.1, x)) := by
        change unmarked (lib.openFile l.path l.flags.toWord) (w.2.1, l₀) = _
        rw [unmarked, hopen]
      rw [hcall]
      dsimp only
      split
      · next hcode =>
        have hfailed : ¬('\x00' ∉ l.path.toList ∧
            (lib.openFile l.path l.flags.toWord l₀).1.1 = okCode) := fun h => by
          rw [hopen] at h
          exact hcode h.2
        rw [call_bind]
        refine ⟨[], ?_, by rw [Outcome, if_neg hfailed]; exact ⟨rfl, by simp⟩⟩
        rw [List.append_nil]
        exact silent_openFailure code handle (w.2.1, x)
      · next hcode =>
        have hopened : '\x00' ∉ l.path.toList ∧
            (lib.openFile l.path l.flags.toWord l₀).1.1 = okCode := by
          rw [hopen]
          exact ⟨hclean, not_not.mp hcode⟩
        have houtcome : ∀ y new, SetUp handle l.setupStatements y new → Outcome lib l l₀ y new := by
          intro y new h
          rw [Outcome, if_pos hopened, hopen]
          exact h
        -- whether or not the library is told how long to wait for a lock, the rest is the same
        have hends : ∀ l₁,
            (setUpHandle lib.marked patience l handle (c₀, (w.2.1, l₁))).Ensures Apart
            (fun _ w' => ∃ new, w'.2.1 = w.2.1 ++ new ∧ Outcome lib l l₀ (.ok ()) new)
            fun stop w' => ∃ new, w'.2.1 = w.2.1 ++ new ∧ Outcome lib l l₀ (.error stop) new := by
          intro l₁
          refine (setUpHandle_setUp patience l handle _).mono (fun _ _ h => h) ?_ ?_
          · rintro _ w' ⟨new, hnew, h⟩
            exact ⟨new, hnew, houtcome _ new h⟩
          · rintro _ w' ⟨new, hnew, h⟩
            exact ⟨new, hnew, houtcome _ new h⟩
        split
        · rw [call_bind]
          exact hends _
        · exact hends _

/-- The statement that attaches a database holds its path and its name as literals and nothing else
of them. A fresh handle is set up by one such statement for each database, in order, after the
journal is set unless it is only read; the first that fails, or holds a zero byte, is the last. -/
theorem setup_issued (patience : Nat) (l : Layout) {w w' : Client × (List Mark × lam)}
    {x : Except Stop Unit}
    (h : (openLayout lib.marked patience l w).Plays (Interrupted lib.marked) x w') :
    (∀ d : Database, tokens (Layout.attachStatement d).toList =
      some [.word "ATTACH".toList, .literal d.path.toList, .word "AS".toList,
        .literal d.name.toList]) ∧
    ∃ c₀ l₀ new, letGo lib.marked w = .done (.ok ()) (c₀, (w.2.1, l₀)) ∧ w'.2.1 = w.2.1 ++ new ∧
      if '\x00' ∉ l.path.toList ∧ (lib.openFile l.path l.flags.toWord l₀).1.1 = okCode then
        SetUp (lib.openFile l.path l.flags.toWord l₀).1.2
          ((if l.flags.readOnly then [] else ["PRAGMA journal_mode = WAL"]) ++
            l.attachments.map Layout.attachStatement) x new
      else new = [] ∧ x ≠ .ok () := by
  refine ⟨tokens_attachStatement, ?_⟩
  obtain ⟨c₀, l₀, hgone⟩ := letGo_marked lib w
  have hfares := fares_of_plays (openLayout_outcome patience l hgone) h
  cases x with
  | ok _ =>
    obtain ⟨new, hnew, houtcome⟩ := hfares
    exact ⟨c₀, l₀, new, hgone, hnew, houtcome⟩
  | error stop =>
    obtain ⟨new, hnew, houtcome⟩ := hfares
    exact ⟨c₀, l₀, new, hgone, hnew, houtcome⟩

namespace Thwarted

open Rehearsal Recount

/-- Three databases are to be attached, the first with a quote in its name. -/
def layout : Layout :=
  { path := "a.db", name := "a",
    attachments := [⟨"it's", "b.db"⟩, ⟨"c", "c.db"⟩, ⟨"d", "d.db"⟩] }

def start : Client × (List Mark × World) :=
  ({}, ([], { engine := Engine.initial { statements := [
    { sql := "ATTACH 'c.db' AS 'c'", preparing := { code := 14 } }] } }))

def thwarted : Client × (List Mark × World) :=
  after (openLayout Engine.library.marked 5 layout start)

/-- Two attachments are looked at, after the journal; the third is not. -/
theorem setup_issued_thwarted :
    ∃ stop, (openLayout Engine.library.marked 5 layout start).Plays
        (Interrupted Engine.library.marked) (.error stop) thwarted ∧
      RunInOrder 1 ["PRAGMA journal_mode = WAL", "ATTACH 'b.db' AS 'it''s'",
        "ATTACH 'c.db' AS 'c'", "ATTACH 'd.db' AS 'd'"] (.error stop) thwarted.2.1 ∧
      (preparations thwarted.2.1).length = 3 := by
  have hfails : ends (fun x => !x.isOk) (openLayout Engine.library.marked 5 layout start) =
      true := by
    decide +kernel
  obtain ⟨x, hx, hplays⟩ := plays_of_ends hfails
  obtain ⟨-, c₀, l₀, new, hgone, hnew, hissued⟩ := setup_issued 5 layout hplays
  have hstart : letGo Engine.library.marked start = .done (.ok ()) start := rfl
  obtain rfl : start.2.2 = l₀ := congrArg (·.2.2) (Turn.done.inj (hstart.symm.trans hgone)).2
  have hcode : '\x00' ∉ layout.path.toList ∧
      (Engine.library.openFile layout.path layout.flags.toWord start.2.2).1.1 = okCode := by
    decide +kernel
  have hhandle : (Engine.library.openFile layout.path layout.flags.toWord start.2.2).1.2 =
      some 1 := by
    decide +kernel
  have htexts : (if layout.flags.readOnly then [] else ["PRAGMA journal_mode = WAL"]) ++
      layout.attachments.map Layout.attachStatement =
      ["PRAGMA journal_mode = WAL", "ATTACH 'b.db' AS 'it''s'", "ATTACH 'c.db' AS 'c'",
        "ATTACH 'd.db' AS 'd'"] := by
    decide +kernel
  rw [if_pos hcode, hhandle, htexts] at hissued
  cases x with
  | ok _ => cases hx
  | error stop =>
    refine ⟨stop, hplays, ?_, by decide +kernel⟩
    rw [show thwarted.2.1 = new from hnew]
    exact hissued.1 1 rfl

end Thwarted
end Client
end Sqlite
end DatabaseSession
