import DatabaseSession.Task.Run
import DatabaseSession.Proofs.Log

namespace DatabaseSession

namespace Duty

/-- Where the failure of a statement comes from. -/
def isStatement : Duty → Bool
  | .execute _ _ | .fetchRow | .nextResult => true
  | _ => false

/-- What a lost connection is noticed by. -/
def isTelltale : Duty → Bool
  | .ping => true
  | d => d.isStatement

end Duty

open Run

variable {ω α β : Type} {kind : Duty → Bool} {F : Stop → Prop}

/-- The last thing that happened is that somebody who was called on for such a duty came back
without a value. -/
def Session.Informed (kind : Duty → Bool) (stop : Stop) (s : Session (Log × ω)) : Prop :=
  ∃ earlier d, s.log = earlier ++ [.returned d (.error stop)] ∧ kind d = true

def Stop.LosesConnection (stop : Stop) : Prop :=
  ∃ e : Error, stop = .error e ∧ e.losesConnection = true

namespace Run

/-- If it stops like that, somebody has just come back so. -/
def Blames (kind : Duty → Bool) (F : Stop → Prop) (m : Run (Log × ω) α) : Prop :=
  ∀ s stop s', m s = (.error stop, s') → F stop → s'.Informed kind stop

theorem blames_of_stops {m : Run (Log × ω) α} (h : Stops (fun stop => ¬F stop) m) :
    Blames kind F m := by
  intro s stop s' hrun hF
  exact absurd hF (h s stop (by rw [hrun]))

theorem blames_bind {m : Run (Log × ω) α} {f : α → Run (Log × ω) β} (hm : Blames kind F m)
    (hf : ∀ a, Blames kind F (f a)) : Blames kind F (m >>= f) := by
  intro s stop s' hrun hF
  rw [bind_apply] at hrun
  rcases hms : m s with ⟨stop | a, s₁⟩ <;> rw [hms] at hrun
  · cases hrun
    exact hm s _ _ hms hF
  · exact hf a s₁ stop s' hrun hF

theorem blames_valueOr {m : Run (Log × ω) α} (hm : Blames kind F m) (default : α) :
    Blames kind F (valueOr default m) := by
  intro s stop s' hrun hF
  rw [valueOr_apply] at hrun
  rcases hms : m s with ⟨(e | q | _) | a, s₁⟩ <;> rw [hms] at hrun <;> cases hrun
  · exact hm s _ _ hms hF
  · exact hm s _ _ hms hF

theorem blames_party (p : Parties ω) {d : Duty} (m : Play ω α)
    (hd : ∀ stop, F stop → kind d = true) (hhang : ¬F .hang) :
    Blames kind F (party p.logged (m.logged d)) := by
  intro s stop s' hrun hF
  obtain ⟨new, hturned⟩ := party_logged p d m s
  rw [hrun] at hturned
  obtain ⟨asides, -, rfl | ⟨hx, -⟩⟩ := hturned.entries
  · exact ⟨s.log ++ .called d :: asides, d, by simpa [Except.map] using hturned.log, hd stop hF⟩
  · cases hx
    exact absurd hF hhang

/-- What a statement may be stopped by, and whose fault that is: what the kill switch does not
explain comes from the backend, or it is a panic. -/
structure Charges (kind : Duty → Bool) (F : Stop → Prop) : Prop where
  statement : ∀ d : Duty, d.isStatement = true → kind d = true
  panic : ∀ q, F (.panic q) → ∀ d, kind d = true
  hang : ¬F .hang
  killed : ∀ sql, ¬F (.error (.killed sql))

theorem charges_loss : Charges Duty.isStatement Stop.LosesConnection where
  statement _ hd := hd
  panic _ h := by
    obtain ⟨e, he, -⟩ := h
    cases he
  hang h := by
    obtain ⟨e, he, -⟩ := h
    cases he
  killed sql h := by
    obtain ⟨e, he, hlost⟩ := h
    cases he
    cases hlost

end Run

namespace Task

theorem stops_hand (p : Parties ω) (sink : Sink) (event : Event) :
    Stops Unfailing (hand p sink event) := by
  cases sink with
  | discard => exact stops_pure ()
  | channel inbox => exact stops_modify _
  | callback key => exact stops_always _

theorem stops_emit (p : Parties ω) (state : Progress) (message : Option String)
    (data : Option EventData) (error : Option ErrorReport) :
    Stops Unfailing (emit p state message data error) := by
  refine stops_bind stops_get fun s => ?_
  dsimp only
  split
  · exact stops_pure ()
  · exact stops_bind (stops_set _) fun _ => stops_hand p _ _

variable (h : Charges kind F) (p : Parties ω)
include h

theorem blames_hand (sink : Sink) (event : Event) : Blames kind F (hand p.logged sink event) := by
  cases sink with
  | discard => exact blames_of_stops (stops_pure ())
  | channel inbox => exact blames_of_stops (stops_modify _)
  | callback key =>
    -- a callback's errors are swallowed, so only a panic is left to be blamed on it
    intro s stop s' hrun hF
    have hstop := stops_always (party p.logged (p.logged.callback key event)) s stop
      (by rw [show always _ s = _ from hrun])
    cases stop with
    | error e => exact absurd rfl (hstop e)
    | hang => exact absurd hF h.hang
    | panic q =>
      exact blames_valueOr (blames_party p (d := .deliver (.callback key) event)
        (p.callback key event) (fun _ _ => h.panic q hF _) h.hang) () s _ s' hrun hF

theorem blames_emit (state : Progress) (message : Option String) (data : Option EventData)
    (error : Option ErrorReport) : Blames kind F (emit p.logged state message data error) := by
  refine blames_bind (blames_of_stops stops_get) fun s => ?_
  dsimp only
  split
  · exact blames_of_stops (stops_pure ())
  · exact blames_bind (blames_of_stops (stops_set _)) fun _ => blames_hand h p _ _

end Task

namespace Query

variable (h : Charges kind F) (p : Parties ω) (q : Query) (sql : String)
include h

theorem blames_acceptRow (columns : List Column) (r : Reading) (row : Row) :
    Blames kind F (acceptRow p.logged q columns r row) := by
  unfold acceptRow
  cases q.shape with
  | rows =>
    dsimp only
    split
    · exact blames_bind (blames_of_stops (stops_modify _)) fun _ =>
        blames_bind (Task.blames_emit h p _ _ _ _) fun _ => blames_of_stops (stops_pure _)
    · exact blames_of_stops (stops_pure _)
  | oneField | oneFieldList => exact blames_of_stops (stops_pure _)

theorem blames_closeSet (columns : List Column) (r : Reading) (stats : StatementStats)
    (elapsed : Duration) (final : Bool) :
    Blames kind F (closeSet p.logged q columns r stats elapsed final) := by
  unfold closeSet
  dsimp only
  split
  · exact Task.blames_emit h p _ _ _ _
  · split
    · exact blames_bind (blames_of_stops (stops_modify _)) fun _ => Task.blames_emit h p _ _ _ _
    · exact blames_of_stops (stops_pure ())

theorem blames_hang : Blames kind F (hang : Run (Log × ω) α) := by
  refine blames_of_stops fun s stop hstop => ?_
  cases hstop
  exact h.hang

theorem blames_default (d : Duty) (default : α) (m : Play ω α) :
    Blames kind F (valueOr default (party p.logged (m.logged d))) := by
  intro s stop s' hrun hF
  have hstop := stops_valueOr default (party p.logged (m.logged d)) s stop (by rw [hrun])
  cases stop with
  | error e => exact absurd rfl (hstop e)
  | hang => exact absurd hF h.hang
  | panic c =>
    exact blames_valueOr (blames_party p m (fun _ _ => h.panic c hF d) h.hang) default s _ s'
      hrun hF

theorem blames_statement {d : Duty} (hd : d.isStatement = true) (m : Play ω α) :
    Blames kind F (party p.logged (m.logged d)) :=
  blames_party p m (fun _ _ => h.statement d hd) h.hang

/-- A kill that is seen is nobody's fault. -/
theorem blames_unlessKilled {m : Run (Log × ω) α} (hm : Blames kind F m) :
    Blames kind F (do
      if (← get).killed then Run.raise (Error.killed (some sql))
      m) := by
  refine blames_bind (blames_of_stops stops_get) fun s => ?_
  split
  · refine blames_bind (blames_of_stops fun s stop hstop => ?_) fun _ => hm
    cases hstop
    exact h.killed _
  · exact hm

theorem blames_readRows (columns : List Column) (patience : Nat) (r : Reading) :
    Blames kind F (readRows p.logged q sql columns patience r) := by
  induction patience generalizing r with
  | zero => exact blames_hang h
  | succ patience ih =>
    refine blames_unlessKilled h sql
      (blames_bind (blames_statement h p (d := .fetchRow) rfl _) fun row => ?_)
    cases row with
    | none => exact blames_of_stops (stops_pure r)
    | some row => exact blames_bind (blames_acceptRow h p q columns r row) ih

theorem blames_takeSet : Blames kind F (takeSet p.logged q sql) := by
  have hend : Blames kind F (endSet p.logged) :=
    blames_bind (blames_default h p .stats _ _) fun _ =>
      blames_bind (blames_of_stops (stops_modify _)) fun _ =>
      blames_bind (blames_statement h p (d := .nextResult) rfl _) fun _ =>
      blames_of_stops (stops_pure _)
  exact blames_bind (blames_default h p .columns _ _) fun columns =>
    blames_bind (blames_readRows h p q sql columns _ _) fun _ =>
    blames_bind hend fun _ => blames_of_stops (stops_pure _)

theorem blames_readSet (last : Bool) (started : Nat) :
    Blames kind F (readSet p.logged q sql last started) :=
  blames_bind (blames_takeSet h p q sql) fun (columns, r, stats, more) =>
    blames_bind (blames_of_stops (stops_now _)) fun _ =>
    blames_bind (blames_closeSet h p q columns r stats _ _) fun _ =>
    blames_of_stops (stops_pure more)

theorem blames_readSets (last : Bool) (started patience : Nat) :
    Blames kind F (readSets p.logged q sql last started patience) := by
  induction patience with
  | zero => exact blames_hang h
  | succ patience ih =>
    refine blames_bind (blames_readSet h p q sql last started) fun more => ?_
    split
    · exact ih
    · exact blames_of_stops (stops_pure ())

/-- What stops a statement, unless it was killed, is what the backend or a sink has just come back
with. -/
theorem blames_attemptStatement (last : Bool) :
    Blames kind F (attemptStatement p.logged q sql last) :=
  blames_bind (blames_of_stops (stops_now _)) fun _ =>
    blames_bind (blames_statement h p (d := .execute sql q.params) rfl _) fun _ =>
      blames_readSets h p q sql last _ _

end Query
end DatabaseSession
