import DatabaseSession.Proofs.Effects

namespace DatabaseSession

namespace Log

def returns (log : Log) : List (Duty × Except Stop Unit) := log.filterMap fun
  | .returned d x => some (d, x)
  | _ => none

def Complete (log : Log) : Prop := (calls log).length = (returns log).length

def Unfinished (log : Log) : Prop :=
  (returns log).length < (calls log).length ∨ ∃ d, .returned d (.error .hang) ∈ log

def rowsAwaited (log : Log) : Nat := (calls log).countP fun
  | .fetchRow => true
  | _ => false

def setsAwaited (log : Log) : Nat := (calls log).countP fun
  | .nextResult => true
  | _ => false

/-- Why a computation does not come back: somebody else does not, or rows or result sets are
asked for that often. -/
def Stuck (rows sets : Nat) (log : Log) : Prop :=
  Unfinished log ∨ rows ≤ rowsAwaited log ∨ sets ≤ setsAwaited log

@[simp] theorem returns_nil : returns [] = [] := rfl

@[simp] theorem returns_called (d : Duty) (log : Log) : returns (.called d :: log) = returns log :=
  rfl

@[simp] theorem returns_returned (d : Duty) (x : Except Stop Unit) (log : Log) :
    returns (.returned d x :: log) = (d, x) :: returns log := rfl

@[simp] theorem returns_append (a b : Log) : returns (a ++ b) = returns a ++ returns b := by
  simp [returns]

@[simp] theorem rowsAwaited_append (a b : Log) :
    rowsAwaited (a ++ b) = rowsAwaited a + rowsAwaited b := by
  simp [rowsAwaited]

@[simp] theorem setsAwaited_append (a b : Log) :
    setsAwaited (a ++ b) = setsAwaited a + setsAwaited b := by
  simp [setsAwaited]

theorem Complete.append {a b : Log} (ha : Complete a) (hb : Complete b) : Complete (a ++ b) := by
  unfold Complete at *
  simp [ha, hb]

theorem Unfinished.after {a b : Log} (hb : Unfinished b) (ha : Complete a) :
    Unfinished (a ++ b) := by
  rcases hb with hb | ⟨d, hd⟩
  · left
    unfold Complete at ha
    simp only [calls_append, returns_append, List.length_append]
    omega
  · exact .inr ⟨d, List.mem_append_right _ hd⟩

theorem Stuck.after {rows sets : Nat} {a b : Log} (hb : Stuck rows sets b) (ha : Complete a) :
    Stuck rows sets (a ++ b) := by
  rcases hb with hb | hb | hb
  · exact .inl (hb.after ha)
  · exact .inr (.inl (by simp; omega))
  · exact .inr (.inr (by simp; omega))

theorem returns_asides {asides : Log} (h : ∀ e ∈ asides, e.isAside = true) :
    returns asides = [] := by
  refine List.filterMap_eq_nil_iff.mpr fun e he => ?_
  have hside := h e he
  cases e with
  | returned d x => simp [Entry.isAside] at hside
  | called | asked | interrupted => rfl

end Log

namespace Session

variable {ω : Type} {d : Duty} {x : Except Stop Unit} {new : Log} {s s' : Session (Log × ω)}

theorem Turned.complete (h : Turned d x new s s') (hx : x ≠ .error .hang) : Log.Complete new := by
  unfold Log.Complete
  rw [h.calls]
  obtain ⟨asides, hside, rfl | ⟨rfl, _⟩⟩ := h.entries
  · simp [Log.returns_asides hside]
  · exact absurd rfl hx

theorem Turned.unfinished (h : Turned d (.error .hang) new s s') : Log.Unfinished new := by
  obtain ⟨asides, hside, rfl | ⟨_, rfl⟩⟩ := h.entries
  · exact .inr ⟨d, by simp⟩
  · exact .inl (by simp [Log.returns_asides hside])

end Session

namespace Run

open Session

variable {ω α β : Type}

/-- All who are called on come back; else it is known why not. -/
def awaiting (ω : Type) (rows sets : Nat) : Course (Log × ω) :=
  .plain (fun s s' => ∃ new, s'.log = s.log ++ new ∧ Log.Complete new)
    (fun s s' => ∃ new, s'.log = s.log ++ new ∧ Log.Stuck rows sets new)
    (fun s => ⟨[], by simp, rfl⟩)
    (by
      rintro a b c ⟨new, hlog, hc⟩ ⟨new', hlog', hc'⟩
      exact ⟨new ++ new', by rw [hlog', hlog, List.append_assoc], hc.append hc'⟩)
    (by
      rintro a b c ⟨new, hlog, hc⟩ ⟨new', hlog', hs⟩
      exact ⟨new ++ new', by rw [hlog', hlog, List.append_assoc], hs.after hc⟩)

variable {p : Parties ω} {rows sets : Nat}

theorem awaiting_permits (p : Parties ω) (rows sets : Nat) (d : Duty) :
    (awaiting ω rows sets).Permits p d := by
  refine Course.permits_of fun {x new s s'} ht => ?_
  by_cases hx : x = .error .hang
  · subst hx
    exact ⟨new, ht.log, .inl ht.unfinished⟩
  · exact Course.allows_of_ne_hang hx ⟨new, ht.log, ht.complete hx⟩

/-- What is asked for in a turn need not be asked for by the rest before it is stuck. -/
theorem awaiting_turn_bind (d : Duty) {m : Play ω α} {f : α → Run (Log × ω) β}
    (hf : ∀ a, Follows (awaiting ω rows sets) (f a)) :
    Follows (awaiting ω (rows + Log.rowsAwaited [.called d]) (sets + Log.setsAwaited [.called d]))
      (party p.logged (m.logged d) >>= f) := by
  intro s
  have hm := awaiting_permits p (rows + Log.rowsAwaited [.called d])
    (sets + Log.setsAwaited [.called d]) d m s
  obtain ⟨new, ht⟩ := party_logged p d m s
  rw [bind_apply]
  rcases hr : party p.logged (m.logged d) s with ⟨stop | a, s₁⟩ <;> rw [hr] at hm ht
  · cases stop <;> exact hm
  · -- the turn has come to its end, so if anything is stuck it is the rest
    have hrest := hf a s₁
    have hc := ht.complete (by simp [Except.map])
    by_cases hx : (f a s₁).1 = .error .hang
    · rw [hx] at hrest ⊢
      obtain ⟨new', hlog', hs⟩ := hrest
      refine ⟨new ++ new', by rw [hlog', ht.log, List.append_assoc], ?_⟩
      have hrows : Log.rowsAwaited new = Log.rowsAwaited [.called d] := by
        simp [Log.rowsAwaited, ht.calls]
      have hsets : Log.setsAwaited new = Log.setsAwaited [.called d] := by
        simp [Log.setsAwaited, ht.calls]
      rcases hs with hs | hs | hs
      · exact .inl (hs.after hc)
      · exact .inr (.inl (by rw [Log.rowsAwaited_append]; omega))
      · exact .inr (.inr (by rw [Log.setsAwaited_append]; omega))
    · exact Course.allows_of_ne_hang hx (Course.trans (awaiting ω rows sets) hm (hrest.goes hx))

theorem awaiting_same_log {s s' : Session (Log × ω)} (h : s'.outside = s.outside) :
    (awaiting ω rows sets).Goes s s' := ⟨[], by simp [log, h], rfl⟩

end Run

namespace Task

open Run Session

variable {ω : Type}

theorem awaiting_hand (p : Parties ω) (rows sets : Nat) (sink : Sink) (event : Event) :
    Follows (awaiting ω rows sets) (hand p.logged sink event) := by
  cases sink with
  | discard => exact follows_pure ()
  | channel inbox =>
    refine follows_modify fun s => ?_
    exact ⟨[.called (.deliver (.channel inbox) event),
      .returned (.deliver (.channel inbox) event) (.ok ())], rfl, rfl⟩
  | callback key => exact follows_always (awaiting_permits p rows sets _ _)

theorem awaiting_emit (p : Parties ω) (rows sets : Nat) (state : Progress) (message : Option String)
    (data : Option EventData) (error : Option ErrorReport) :
    Follows (awaiting ω rows sets) (emit p.logged state message data error) := by
  intro s
  unfold emit
  rw [get_bind_apply]
  cases s.active.courier.send state message data error with
  | none => exact Course.refl _ s
  | some sent =>
    refine (awaiting_hand p rows sets _ sent.event _).after (awaiting_same_log ?_)
    rfl

theorem awaiting_covers (p : Parties ω) (rows sets : Nat) :
    Covers (awaiting ω rows sets) p where
  permits d _ := awaiting_permits p rows sets d
  counts _ := awaiting_same_log rfl
  reading d _ := awaiting_permits p rows sets d
  streams chunk := follows_bind (follows_modify fun s => awaiting_same_log rfl) fun _ =>
    awaiting_emit p rows sets _ _ _ _
  endsWell message data := awaiting_emit p rows sets _ message data none
  schema d _ := awaiting_permits p rows sets d
  endsInError e := by
    refine follows_bind follows_get fun s => ?_
    split
    · exact follows_pure ()
    · exact follows_bind (follows_modify fun s => awaiting_same_log rfl) fun _ =>
        awaiting_emit p rows sets _ _ _ _
  updates _ _ _ := awaiting_same_log rfl
  restarts _ := awaiting_same_log rfl

end Task

namespace Query

open Run

variable {ω : Type}

theorem awaiting_readRows (p : Parties ω) (sets : Nat) (q : Query) (sql : String)
    (columns : List Column) (patience : Nat) (r : Reading) :
    Follows (awaiting ω patience sets) (readRows p.logged q sql columns patience r) := by
  induction patience generalizing r with
  | zero => exact follows_hang fun s => ⟨[], by simp, .inr (.inl (by simp))⟩
  | succ patience ih =>
    refine follows_unlessKilled sql (awaiting_turn_bind .fetchRow fun row => ?_)
    cases row with
    | none => exact follows_pure r
    | some row =>
      have hcovers := (Task.awaiting_covers p patience sets).toReading
      exact follows_bind (follows_acceptRow hcovers.streams q columns r row) fun r' => ih r'

theorem awaiting_readSets (p : Parties ω) (q : Query) (sql : String) (last : Bool)
    (started patience : Nat) :
    Follows (awaiting ω p.patience patience)
      (readSets p.logged q sql last started patience) := by
  induction patience with
  | zero => exact follows_hang fun s => ⟨[], by simp, .inr (.inr (by simp))⟩
  | succ patience ih =>
    have hc := Task.awaiting_covers p p.patience (patience + 1)
    have hrest := Task.awaiting_covers p p.patience patience
    simp only [readSets_succ, takeSet, endSet, bind_assoc, pure_bind]
    refine follows_bind (follows_valueOr _ (hc.reading .columns rfl _)) fun columns =>
      follows_bind (awaiting_readRows p _ q sql columns p.patience _) fun r =>
      follows_bind (follows_valueOr _ (hc.reading .stats rfl _)) fun stats =>
      follows_bind (hc.follows_update fun _ => ⟨rfl, rfl, rfl, rfl, rfl⟩) fun _ =>
      awaiting_turn_bind .nextResult fun more =>
      follows_bind (follows_now _) fun t =>
      follows_bind (follows_closeSet hrest.streams (fun _ => hrest.endsWell) q columns r stats _)
        fun _ => ?_
    split
    · exact ih
    · exact follows_pure ()

/-- A query that does not come back has met somebody who does not, or more rows or result sets than
anybody has the patience for. -/
theorem awaiting_run (p : Parties ω) (q : Query) :
    Follows (awaiting ω p.patience p.patience) (q.run p.logged) :=
  follows_run (Task.awaiting_covers p _ _) q fun sql last started =>
    awaiting_readSets p q sql last started p.patience

end Query
end DatabaseSession
