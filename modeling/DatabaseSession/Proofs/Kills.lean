import DatabaseSession.Proofs.Exhaustion
import DatabaseSession.Proofs.Killing

namespace DatabaseSession

open Course Run Session

namespace Duty

/-- Part of a statement, or the handing over of an event. -/
def isBusy : Duty → Bool
  | .deliver _ _ => true
  | d => d.isStatement

theorem isBusy_of_isConnecting {d : Duty} {kind : Attempt → Bool}
    (h : d.isConnecting kind = true) : d.isBusy = false := by
  cases d <;> first | rfl | cases h

end Duty

namespace Log

/-- A kill in a log. It came while somebody was called on for the duty, and no new query lifts
it. -/
structure Kill where
  earlier : Log
  duty : Duty
  asides : Log
  thread : Thread
  answer : Answer
  later : Log
  aside : ∀ e ∈ asides, e.isAside = true
  unlifted : ∀ thread t a, .asked thread (.execute t) a ∉ later

namespace Kill

/-- All that is written when the kill is. -/
def head (κ : Kill) : Log :=
  κ.earlier ++ .called κ.duty :: (κ.asides ++ [.asked κ.thread .kill κ.answer])

def log (κ : Kill) : Log := κ.head ++ κ.later

theorem calls_head (κ : Kill) : calls κ.head = calls κ.earlier ++ [κ.duty] := by
  have hkill : calls [.asked κ.thread .kill κ.answer] = [] := rfl
  simp [head, calls_asides κ.aside, hkill]

theorem exists_head (κ : Kill) : ∃ init, κ.head = init ++ [.asked κ.thread .kill κ.answer] :=
  ⟨κ.earlier ++ .called κ.duty :: κ.asides, by simp [head]⟩

variable {ω α : Type} {κ : Kill} {s s' : Session (Log × ω)} {new : Log}

def Past (κ : Kill) (s : Session (Log × ω)) : Prop := κ.head.length ≤ s.log.length

def since (κ : Kill) (s : Session (Log × ω)) : Log := s.log.drop κ.head.length

theorem since_of_not_past (h : ¬κ.Past s) : κ.since s = [] :=
  List.drop_of_length_le (by unfold Past at h; omega)

theorem since_grown (h : s'.log = s.log ++ new) :
    κ.since s' = κ.since s ++ new.drop (κ.head.length - s.log.length) := by
  rw [since, h, List.drop_append, since]

theorem Past.grows (h : κ.Past s) (hlog : s.log <+: s'.log) : κ.Past s' :=
  Nat.le_trans h hlog.length_le

theorem since_log (h : s.log = κ.log) : κ.since s = κ.later := by
  rw [since, h, log, List.drop_left]

/-- On the way to the kill's log, what comes past the kill has written it and some of the rest. -/
theorem exists_done (hlog : s'.log = s.log ++ new) (hway : s'.log <+: κ.log) (hs : ¬κ.Past s)
    (hs' : κ.Past s') :
    ∃ done rest, done ≠ [] ∧ new = done ++ rest ∧ κ.head = s.log ++ done ∧ rest <+: κ.later := by
  have hhead : κ.head <+: s'.log :=
    List.prefix_of_prefix_length_le (List.prefix_append _ _) hway hs'
  have hfirst : s.log <+: κ.head := by
    refine List.prefix_of_prefix_length_le (List.IsPrefix.trans ⟨new, hlog.symm⟩ hway)
      (List.prefix_append _ _) ?_
    unfold Past at hs
    omega
  obtain ⟨done, hdone⟩ := hfirst
  obtain ⟨rest, hrest⟩ := hhead
  refine ⟨done, rest, ?_, ?_, hdone.symm, ?_⟩
  · rintro rfl
    rw [List.append_nil] at hdone
    exact hs (Nat.le_of_eq (by rw [hdone]))
  · rw [← hrest, ← hdone, List.append_assoc] at hlog
    exact (List.append_cancel_left hlog).symm
  · rw [← hrest] at hway
    exact (List.prefix_append_right_inj _).mp hway

theorem since_within (hway : s.log <+: κ.log) : κ.since s <+: κ.later := by
  obtain ⟨rest, hrest⟩ := hway
  refine ⟨rest.drop (κ.head.length - s.log.length), ?_⟩
  rw [since, ← List.drop_append, hrest, log, List.drop_left]

/-- Once the kill has come the switch is on. -/
def On (κ : Kill) (s : Session (Log × ω)) : Prop := κ.Past s → s.killed = true

theorem On.goes (hon : κ.On s) (hgoes : (switching ω).Goes s s') (hway : s'.log <+: κ.log) :
    κ.On s' := by
  intro hs'
  obtain ⟨new, hlog, hswitch⟩ := hgoes
  by_cases hs : κ.Past s
  · rw [hon hs] at hswitch
    refine (hswitch.stays_on fun thread t a hmem => ?_).1
    have hnew : .asked thread (.execute t) a ∈ κ.since s' := by
      rw [since_grown hlog, Nat.sub_eq_zero_of_le hs]
      exact List.mem_append_right _ hmem
    exact κ.unlifted thread t a ((since_within hway).subset hnew)
  · obtain ⟨done, rest, hdone, rfl, hhead, hrest⟩ := exists_done hlog hway hs hs'
    obtain ⟨init, hinit⟩ := κ.exists_head
    rcases List.eq_nil_or_concat done with rfl | ⟨pre, last, rfl⟩
    · exact absurd rfl hdone
    · -- the kill is the last that was written of the first part
      rw [List.concat_eq_append, ← List.append_assoc, hinit] at hhead
      obtain ⟨-, hlast⟩ := List.append_inj' hhead rfl
      cases hlast
      rw [List.concat_eq_append, List.append_assoc] at hswitch
      exact (hswitch.on_after_kill fun thread t a hmem =>
        κ.unlifted thread t a (hrest.subset hmem)).1

theorem On.follows {m : Run (Log × ω) α} {x : Except Stop α} (hon : κ.On s)
    (hm : Follows (switching ω) m) (hrun : m s = (x, s')) (hx : x ≠ .error .hang)
    (hway : s'.log <+: κ.log) : κ.On s' := hon.goes (hm.goes hrun hx) hway

theorem mem_since {e : Entry} {before : Log} (hlog : s.log = before ++ [e])
    (hway : s.log <+: κ.log) (hs : κ.Past s) (he : e.isAside = false) : e ∈ κ.since s := by
  by_cases hbefore : κ.head.length ≤ before.length
  · rw [since, hlog, List.drop_append_of_le_length hbefore]
    exact List.mem_append_right _ (List.mem_singleton_self e)
  · have hlen : s.log.length = κ.head.length := by
      unfold Past at hs
      rw [hlog, List.length_append, List.length_singleton] at hs ⊢
      omega
    obtain ⟨init, hinit⟩ := κ.exists_head
    have hhead : s.log = κ.head := (List.prefix_of_prefix_length_le hway
      (List.prefix_append _ _) (Nat.le_of_eq hlen)).eq_of_length hlen
    rw [hlog, hinit] at hhead
    obtain ⟨-, hlast⟩ := List.append_inj' hhead rfl
    cases hlast
    cases he

end Kill
end Log

namespace Log.Kill

variable {ω α β : Type} {κ : Kill} {P : Duty → Prop} {s s' : Session (Log × ω)}

/-- Whoever the kill came to was called on at the time. -/
theorem duty_of_making (hgoes : (making ω P).Goes s s') (hway : s'.log <+: κ.log)
    (hs : ¬κ.Past s) (hs' : κ.Past s') : P κ.duty := by
  obtain ⟨new, hlog, hcalls, hfirst⟩ := hgoes
  obtain ⟨done, rest, hdone, rfl, hhead, -⟩ := exists_done hlog hway hs hs'
  cases done with
  | nil => exact absurd rfl hdone
  | cons e done =>
    obtain ⟨d, rfl⟩ := hfirst e (by simp)
    have hduty : κ.duty ∈ calls (.called d :: done) := by
      have hlast := congrArg calls hhead
      rw [κ.calls_head, calls_append] at hlast
      -- the first of these calls is there, so the last of all is one of them
      rcases List.eq_nil_or_concat (calls (.called d :: done)) with hnil | ⟨init, last, hcat⟩
      · simp at hnil
      · rw [hcat, List.concat_eq_append, ← List.append_assoc] at hlast
        obtain ⟨-, heq⟩ := List.append_inj' hlast rfl
        cases heq
        rw [hcat, List.concat_eq_append]
        exact List.mem_append_right _ (List.mem_singleton_self _)
    refine hcalls _ ?_
    rw [calls_append]
    exact List.mem_append_left _ hduty

/-- Since the kill no row was asked for, nothing was done towards a connection, and so many
statements were begun at most. -/
structure Stilled (κ : Kill) (n : Nat) (s : Session (Log × ω)) : Prop where
  calls : ∀ d ∈ calls (κ.since s), d.isFetch = false ∧ d.isConnecting (fun _ => true) = false
  executes : (Log.calls (κ.since s)).countP Duty.isExecute ≤ n

namespace Stilled

theorem of_not_past {n : Nat} (h : ¬κ.Past s) : κ.Stilled n s := by
  constructor <;> simp [since_of_not_past h]

theorem mono {n k : Nat} (h : κ.Stilled n s) (hk : n ≤ k) : κ.Stilled k s :=
  ⟨h.calls, Nat.le_trans h.executes hk⟩

theorem grown {n k : Nat} {new : Log} (h : κ.Stilled n s) (hlog : s'.log = s.log ++ new)
    (hcalls : ∀ d ∈ Log.calls (new.drop (κ.head.length - s.log.length)),
      d.isFetch = false ∧ d.isConnecting (fun _ => true) = false)
    (hexecutes : (Log.calls (new.drop (κ.head.length - s.log.length))).countP Duty.isExecute ≤ k) :
    κ.Stilled (n + k) s' := by
  constructor
  · intro d hd
    rw [since_grown hlog, calls_append] at hd
    exact (List.mem_append.mp hd).elim (h.calls d) (hcalls d)
  · rw [since_grown hlog, calls_append, List.countP_append]
    exact Nat.add_le_add h.executes hexecutes

theorem mem_calls_of_drop {log : Log} {k : Nat} {d : Duty} (h : d ∈ Log.calls (log.drop k)) :
    d ∈ Log.calls log := ((List.drop_sublist k log).filterMap _).subset h

theorem calmly {n : Nat} (h : κ.Stilled n s) (hgoes : (calmly ω).Goes s s') :
    κ.Stilled n s' := by
  obtain ⟨new, hlog, hcalls, -⟩ := hgoes
  have hcalm : ∀ d ∈ Log.calls (new.drop (κ.head.length - s.log.length)),
      d.isFetch = false ∧ d.isExecute = false ∧ d.isConnecting (fun _ => true) = false := by
    intro d hd
    simpa [Duty.isCalm, and_assoc] using hcalls d (mem_calls_of_drop hd)
  refine h.grown (k := 0) hlog (fun d hd => ⟨(hcalm d hd).1, (hcalm d hd).2.2⟩) (Nat.le_of_eq ?_)
  exact List.countP_eq_zero.mpr fun d hd => by simp [(hcalm d hd).2.1]

/-- Any other call counts as one statement at most. -/
theorem turned_succ {n : Nat} {d : Duty} {x : Except Stop Unit} {new : Log} (h : κ.Stilled n s)
    (hturned : Turned d x new s s') (hfetch : d.isFetch = false)
    (hconnect : d.isConnecting (fun _ => true) = false) : κ.Stilled (n + 1) s' := by
  have hsub : (Log.calls (new.drop (κ.head.length - s.log.length))).Sublist (Log.calls new) :=
    (List.drop_sublist _ new).filterMap _
  rw [hturned.calls] at hsub
  refine h.grown hturned.log (fun d' hd' => ?_) ?_
  · obtain rfl := List.mem_singleton.mp (hsub.subset hd')
    exact ⟨hfetch, hconnect⟩
  · exact Nat.le_trans List.countP_le_length hsub.length_le

theorem turned {n : Nat} {d : Duty} {x : Except Stop Unit} {new : Log} (h : κ.Stilled n s)
    (hturned : Turned d x new s s') (hs : ¬κ.Past s) : κ.Stilled n s' := by
  have hnone : Log.calls (new.drop (κ.head.length - s.log.length)) = [] := by
    obtain ⟨k, hk⟩ : ∃ k, κ.head.length - s.log.length = k + 1 := by
      unfold Past at hs
      exact ⟨κ.head.length - s.log.length - 1, by omega⟩
    have hrest : Log.calls (new.drop 1) = [] := by
      obtain ⟨asides, hside, rfl | ⟨-, rfl⟩⟩ := hturned.entries <;>
        simp [Log.calls_asides hside]
    rw [hk, Nat.add_comm, ← List.drop_drop]
    refine List.eq_nil_iff_forall_not_mem.mpr fun d hd => ?_
    have hmem := mem_calls_of_drop hd
    rw [hrest] at hmem
    exact List.not_mem_nil hmem
  exact h.grown (k := 0) hturned.log (by simp [hnone]) (by simp [hnone])

end Stilled

/-- On the way to the kill's log, from a state of the one kind the computation comes to an end of
the other, and it leaves the kill switch to those who ask. -/
structure Walks (κ : Kill) (A : Session (Log × ω) → Prop) (m : Run (Log × ω) α)
    (B : Except Stop α → Session (Log × ω) → Prop) : Prop where
  switches : Follows (switching ω) m
  walks : ∀ {s x s'}, m s = (x, s') → s'.log <+: κ.log → κ.On s → A s → B x s'

namespace Walks

variable {A : Session (Log × ω) → Prop} {m : Run (Log × ω) α}
  {B : Except Stop α → Session (Log × ω) → Prop} {C : Except Stop β → Session (Log × ω) → Prop}

theorem switching_extends {x : Except Stop α} (h : (switching ω).Allows x s s') :
    s.log <+: s'.log := by
  rcases x with (_ | _ | _) | _
  case error.hang =>
    obtain ⟨new, b, hlog, -⟩ := h
    exact ⟨new, hlog.symm⟩
  all_goals
    obtain ⟨new, hlog, -⟩ := h
    exact ⟨new, hlog.symm⟩

theorem way {x : Except Stop α} (hm : Walks κ A m B) (hrun : m s = (x, s'))
    (hway : s'.log <+: κ.log) : s.log <+: κ.log := by
  have h := hm.switches s
  rw [hrun] at h
  exact (switching_extends h).trans hway

theorem bind {f : α → Run (Log × ω) β} (hm : Walks κ A m B)
    (hf : ∀ a, Walks κ (B (.ok a)) (f a) C)
    (hstop : ∀ stop s, B (.error stop) s → C (.error stop) s) : Walks κ A (m >>= f) C := by
  refine ⟨follows_bind hm.switches fun a => (hf a).switches, fun {s x s'} hrun hway hon hs => ?_⟩
  rw [bind_apply] at hrun
  rcases hms : m s with ⟨stop | a, s₁⟩ <;> rw [hms] at hrun
  · cases hrun
    exact hstop stop _ (hm.walks hms hway hon hs)
  · have hway₁ := (hf a).way hrun hway
    exact (hf a).walks hrun hway (hon.follows hm.switches hms (by simp) hway₁)
      (hm.walks hms hway₁ hon hs)

theorem weaken {A' : Session (Log × ω) → Prop} (hm : Walks κ A m B) (h : ∀ s, A' s → A s) :
    Walks κ A' m B :=
  ⟨hm.switches, fun hrun hway hon hs => hm.walks hrun hway hon (h _ hs)⟩

theorem calmly {n : Nat} (hswitch : Follows (switching ω) m) (hcalm : Follows (calmly ω) m) :
    Walks κ (κ.Stilled n) m fun _ => κ.Stilled n :=
  ⟨hswitch, fun hrun _ _ hs => hs.calmly (hcalm.grown id hrun)⟩

theorem unlessKilled {sql : String} (hm : Walks κ (fun s => A s ∧ ¬κ.Past s) m B)
    (hkilled : ∀ s, A s → B (.error (.error (.killed (some sql)))) s) :
    Walks κ A (do
      if (← get).killed then raise (Error.killed (some sql))
      m) B := by
  refine ⟨Query.follows_unlessKilled sql hm.switches, fun {s x s'} hrun hway hon hs => ?_⟩
  rw [get_bind_apply] at hrun
  split at hrun
  · cases hrun
    exact hkilled _ hs
  · next hoff => exact hm.walks hrun hway hon ⟨hs, fun hpast => hoff (hon hpast)⟩

end Walks
end Log.Kill
end DatabaseSession
