import DatabaseSession.Proofs.Footing

namespace DatabaseSession

open Course Run Session

namespace Duty

def isFetch : Duty → Bool
  | .fetchRow => true
  | _ => false

/-- Neither runs a statement nor reads a row nor belongs to a connect attempt. -/
def isCalm (d : Duty) : Bool := !d.isFetch && !d.isExecute && !d.isConnecting fun _ => true

end Duty

variable {ω : Type}

theorem Run.exists_turned {α : Type} {p : Parties ω} {d : Duty} {m : Play ω α}
    {s s' : Session (Log × ω)} {x : Except Stop α}
    (hrun : party p.logged (m.logged d) s = (x, s')) :
    ∃ new, Turned d (x.map fun _ => ()) new s s' := by
  obtain ⟨new, hturned⟩ := party_logged p d m s
  rw [hrun] at hturned
  exact ⟨new, hturned⟩

/-- The log grows by calls of this kind, and begins with one. -/
def Course.making (ω : Type) (P : Duty → Prop) : Course (Log × ω) :=
  .ofGrowth (fun s s' => ∃ new, s'.log = s.log ++ new ∧ (∀ d ∈ Log.calls new, P d) ∧
      ∀ e ∈ new.head?, ∃ d, e = .called d)
    (fun s => ⟨[], by simp, by simp, by simp⟩)
    (by
      rintro a b c ⟨new, hlog, hcalls, hhead⟩ ⟨new', hlog', hcalls', hhead'⟩
      refine ⟨new ++ new', by rw [hlog', hlog, List.append_assoc], fun d hd => ?_, ?_⟩
      · rw [Log.calls_append] at hd
        exact (List.mem_append.mp hd).elim (hcalls d) (hcalls' d)
      · cases new with
        | nil => exact hhead'
        | cons e new => exact hhead)

def Course.calmly (ω : Type) : Course (Log × ω) := making ω fun d => d.isCalm = true

namespace Course

variable {P : Duty → Prop} {p : Parties ω} {s s' : Session (Log × ω)}

theorem making_permits {d : Duty} (hd : P d) : (making ω P).Permits p d := by
  refine permits_of fun {x new s s'} ht => ?_
  have hgoes : (making ω P).Goes s s' := by
    refine ⟨new, ht.log, by rw [ht.calls]; simpa using hd, ?_⟩
    obtain ⟨asides, -, rfl | ⟨-, rfl⟩⟩ := ht.entries <;> simp
  exact allows_of_panics hgoes hgoes

theorem making_same (hout : s'.outside = s.outside) : (making ω P).Goes s s' :=
  ⟨[], by simp [Session.log, hout], by simp, by simp⟩

theorem calmly_permits (p : Parties ω) {d : Duty} (hd : d.isCalm = true) :
    (calmly ω).Permits p d := making_permits hd

theorem making_extends (hgoes : (making ω P).Goes s s') : s.log <+: s'.log := by
  obtain ⟨new, hlog, -⟩ := hgoes
  exact ⟨new, hlog.symm⟩

end Course

namespace Task

variable {P : Duty → Prop} {state : Progress} {error : Option ErrorReport}

theorem making_hand (p : Parties ω) {sink : Sink} {event : Event} (h : P (.deliver sink event)) :
    Follows (making ω P) (hand p.logged sink event) := by
  cases sink with
  | discard => exact follows_pure ()
  | channel inbox => exact follows_modify fun s => ⟨_, rfl, by simpa using h, by simp⟩
  | callback key => exact follows_always (making_permits h _)

theorem making_emit (p : Parties ω)
    (h : ∀ sink event, event.state = state → event.error = error → P (.deliver sink event))
    (message : Option String) (data : Option EventData) :
    Follows (making ω P) (emit p.logged state message data error) := by
  intro s
  cases hterm : s.active.courier.terminal with
  | some st =>
    rw [emit_closed _ _ _ _ _ s (by simp [hterm])]
    exact (making ω P).refl s
  | none =>
    rw [emit_open _ _ _ _ _ s hterm]
    exact (making_hand p (h _ _ rfl rfl) _).after (making_same rfl)

theorem making_stream (p : Parties ω) (h : ∀ sink event, P (.deliver sink event)) (chunk : Chunk) :
    Follows (making ω P) (stream p.logged chunk) :=
  follows_bind (follows_modify fun _ => making_same rfl) fun _ =>
    making_emit p (fun sink event _ _ => h sink event) _ _

theorem making_endInError (p : Parties ω) {e : Error}
    (h : ∀ sink event, event.state = .error → event.error = some (.ofError e) →
      P (.deliver sink event)) :
    Follows (making ω P) (endInError p.logged e) := by
  refine follows_bind follows_get fun s => ?_
  split
  · exact follows_pure ()
  · exact follows_bind (follows_modify fun _ => making_same rfl) fun _ => making_emit p h _ _

theorem making_fetches (p : Parties ω) : Query.Fetches (making ω fun _ => True) p where
  reading _ _ := making_permits trivial
  streams := making_stream p fun _ _ => trivial
  updates _ _ _ := making_same rfl

end Task

namespace Query

variable {p : Parties ω} {q : Query} {sql : String} {a s s' : Session (Log × ω)}

/-- Asked for a row here, the backend had none left. The result set was the last one, and there
were only calm calls since. -/
inductive Exhausted (p : Parties ω) (a s : Session (Log × ω)) : Prop where
  | intro {a' b b' : Session (Log × ω)}
      (hfetch : party p.logged p.logged.backend.fetchRow a = (.ok none, a'))
      (hquiet : (calmly ω).Goes a' b)
      (hnext : party p.logged p.logged.backend.nextResult b = (.ok false, b'))
      (hsince : (calmly ω).Goes b' s) : Exhausted p a s

theorem Exhausted.calmly (h : Exhausted p a s) (hgoes : (calmly ω).Goes s s') :
    Exhausted p a s' := by
  obtain ⟨hfetch, hquiet, hnext, hsince⟩ := h
  exact .intro hfetch hquiet hnext ((Course.calmly ω).trans hsince hgoes)

/-- The statement that was begun last had its last result set read to its end from here on. -/
structure ReadOut (p : Parties ω) (q : Query) (sql : String) (a s : Session (Log × ω)) : Prop where
  exhausted : Exhausted p a s
  executed : ∃ before after, s.log = before ++ .called (.execute sql q.params) :: after ∧
    before.length < a.log.length ∧ ∀ d ∈ Log.calls after, d.isExecute = false

theorem ReadOut.calmly (h : ReadOut p q sql a s) (hgoes : (calmly ω).Goes s s') :
    ReadOut p q sql a s' := by
  obtain ⟨before, after, hlog, hlt, hafter⟩ := h.executed
  have hexhausted := h.exhausted.calmly hgoes
  obtain ⟨new, hnew, hcalls, -⟩ := hgoes
  refine ⟨hexhausted, before, after ++ new, ?_, hlt, ?_⟩
  · rw [hnew, hlog]
    simp
  · intro d hd
    rw [Log.calls_append] at hd
    refine (List.mem_append.mp hd).elim (hafter d) fun hd => ?_
    have hcalm := hcalls d hd
    simp only [Duty.isCalm, Bool.and_eq_true, Bool.not_eq_true'] at hcalm
    exact hcalm.1.2

/-- Rows are read until the backend has none left. -/
theorem readRows_drains {columns : List Column} {patience : Nat} {r r' : Reading}
    (hrun : readRows p.logged q sql columns patience r s = (.ok r', s')) :
    ∃ a, s.log <+: a.log ∧ party p.logged p.logged.backend.fetchRow a = (.ok none, s') := by
  have hc := Task.making_fetches p
  induction patience generalizing r s with
  | zero => cases hrun
  | succ patience ih =>
    rw [readRows, get_bind_apply] at hrun
    split at hrun
    · cases hrun
    change (party p.logged p.logged.backend.fetchRow >>= _) s = _ at hrun
    rw [bind_apply] at hrun
    rcases hfetch : party p.logged p.logged.backend.fetchRow s with ⟨stop | row, s₁⟩ <;>
      rw [hfetch] at hrun
    · cases hrun
    have hfirst := (hc.reading .fetchRow rfl p.backend.fetchRow).grown id hfetch
    cases row with
    | none =>
      cases hrun
      exact ⟨s, List.prefix_rfl, hfetch⟩
    | some row =>
      change (acceptRow p.logged q columns r row >>= _) s₁ = _ at hrun
      rw [bind_apply] at hrun
      rcases haccept : acceptRow p.logged q columns r row s₁ with ⟨stop | r₁, s₂⟩ <;>
        rw [haccept] at hrun
      · cases hrun
      have hsecond := (follows_acceptRow hc.streams q columns r row).grown id haccept
      obtain ⟨a, ha, hnone⟩ := ih hrun
      exact ⟨a, ((making_extends hfirst).trans (making_extends hsecond)).trans ha, hnone⟩

theorem calmly_emit (p : Parties ω) (state : Progress) (message : Option String)
    (data : Option EventData) (error : Option ErrorReport) :
    Follows (calmly ω) (Task.emit p.logged state message data error) :=
  Task.making_emit p (fun _ _ _ _ => rfl) message data

end Query
end DatabaseSession
