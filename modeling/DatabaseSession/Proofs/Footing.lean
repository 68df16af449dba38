import DatabaseSession.Proofs.Dialling

namespace DatabaseSession

namespace Duty

/-- What makes or ends a connection. -/
def isLinking : Duty → Bool
  | .connect _ | .disconnect => true
  | _ => false

def isExecute : Duty → Bool
  | .execute _ _ => true
  | _ => false

theorem isLinking_of_isBeside {d : Duty} (h : d.isBeside = true) : d.isLinking = false := by
  cases d <;> first | rfl | cases h

theorem isExecute_of_isApart {d : Duty} (h : d.isApart = true) : d.isExecute = false := by
  cases d <;> first | rfl | cases h

theorem isExecute_of_isConnecting {d : Duty} {kind : Attempt → Bool}
    (h : d.isConnecting kind = true) : d.isExecute = false := by
  cases d <;> first | rfl | cases h

theorem isExecute_of_isFollowUp {d : Duty} (h : d.isFollowUp = true) : d.isExecute = false := by
  cases d <;> first | rfl | cases h

theorem isLinking_of_isPublishing {d : Duty} (h : d.isPublishing = true) : d.isLinking = false := by
  cases d <;> first | rfl | cases h

theorem isExecute_of_isPublishing {d : Duty} (h : d.isPublishing = true) : d.isExecute = false := by
  cases d <;> first | rfl | cases h

theorem isLinking_of_isSetup {d : Duty} (h : Link.isSetup d) : d.isLinking = false := by
  cases d <;> first | rfl | cases h

end Duty

namespace Log

/-- Nobody was called on to make or end a connection. -/
def Unlinked (log : Log) : Prop := ∀ d ∈ calls log, d.isLinking = false

/-- The last connect in the log succeeded, so many hooks have set the connection up, and it was left
alone since. -/
def SetUp (hooks : Nat) (log : Log) : Prop :=
  ∃ before options after, log = before ++ .returned (.connect options) (.ok ()) :: after ∧
    Unlinked after ∧ ∀ i < hooks, .returned (.onConnected i) (.ok ()) ∈ after

/-- No connect succeeded, or a hook has failed to set the connection up. -/
def Failed (log : Log) : Prop :=
  (∀ options, .returned (.connect options) (.ok ()) ∉ log) ∨
    ∃ i stop, .returned (.onConnected i) (.error stop) ∈ log

/-- The connection was dropped for another one, the attempt at it failed, and no other was made. -/
def Broken (log : Log) : Prop :=
  ∃ before tried since, log = before ++ .called .disconnect :: tried ++ since ∧
    .disconnect ∉ calls tried ∧ Failed tried ∧ Unlinked since

theorem Unlinked.append {a b : Log} (ha : Unlinked a) (hb : Unlinked b) : Unlinked (a ++ b) := by
  intro d hd
  rw [calls_append] at hd
  exact (List.mem_append.mp hd).elim (ha d) (hb d)

theorem Unlinked.left {a b : Log} (h : Unlinked (a ++ b)) : Unlinked a := by
  intro d hd
  exact h d (by rw [calls_append]; exact List.mem_append_left _ hd)

/-- What has become of the connection. -/
inductive Links (hooks : Nat) (log : Log) : Prop where
  | none (h : Unlinked log)
  | setUp (h : SetUp hooks log)
  | broken (h : Broken log)

variable {hooks : Nat} {a b : Log}

theorem SetUp.after (h : SetUp hooks b) (a : Log) : SetUp hooks (a ++ b) := by
  obtain ⟨before, options, after, rfl, hafter, hhooks⟩ := h
  exact ⟨a ++ before, options, after, by simp, hafter, hhooks⟩

theorem SetUp.append (h : SetUp hooks a) (hb : Unlinked b) : SetUp hooks (a ++ b) := by
  obtain ⟨before, options, after, rfl, hafter, hhooks⟩ := h
  exact ⟨before, options, after ++ b, by simp, hafter.append hb, fun i hi =>
    List.mem_append_left _ (hhooks i hi)⟩

theorem Broken.after (h : Broken b) (a : Log) : Broken (a ++ b) := by
  obtain ⟨before, tried, since, rfl, hrest⟩ := h
  exact ⟨a ++ before, tried, since, by simp, hrest⟩

theorem Broken.append (h : Broken a) (hb : Unlinked b) : Broken (a ++ b) := by
  obtain ⟨before, tried, since, rfl, hdropped, hfailed, hsince⟩ := h
  exact ⟨before, tried, since ++ b, by simp, hdropped, hfailed, hsince.append hb⟩

theorem Links.append (ha : Links hooks a) (hb : Links hooks b) : Links hooks (a ++ b) := by
  cases hb with
  | none hb =>
    cases ha with
    | none ha => exact .none (ha.append hb)
    | setUp ha => exact .setUp (ha.append hb)
    | broken ha => exact .broken (ha.append hb)
  | setUp hb => exact .setUp (hb.after a)
  | broken hb => exact .broken (hb.after a)

/-- Each statement that the one log has more than the other was run where `R` holds of the log up to
there. -/
def ExecutesWhere (R : Log → Prop) (log log' : Log) : Prop :=
  ∃ new, log' = log ++ new ∧ ∀ found sql params later,
    new = found ++ .called (.execute sql params) :: later → R (log ++ found)

namespace ExecutesWhere

variable {R : Log → Prop} {c new : Log}

theorem trans (h : ExecutesWhere R a b) (h' : ExecutesWhere R b c) : ExecutesWhere R a c := by
  obtain ⟨new, rfl, hnew⟩ := h
  obtain ⟨new', rfl, hnew'⟩ := h'
  refine ⟨new ++ new', List.append_assoc .., fun found sql params later hsplit => ?_⟩
  rcases append_eq_split hsplit with ⟨rest, hfirst⟩ | ⟨found', rfl, hsecond⟩
  · exact hnew found sql params rest hfirst
  · rw [← List.append_assoc]
    exact hnew' found' sql params later hsecond

theorem of_unexecuted (h : ∀ d ∈ calls new, d.isExecute = false) :
    ExecutesWhere R a (a ++ new) := by
  refine ⟨new, rfl, fun found sql params later hsplit => ?_⟩
  have hmem : .execute sql params ∈ calls new := by rw [hsplit]; simp
  exact absurd (h _ hmem) (by simp [Duty.isExecute])

theorem refl (log : Log) : ExecutesWhere R log log := by
  have h : ExecutesWhere R log (log ++ []) := of_unexecuted (by simp)
  rwa [List.append_nil] at h

end ExecutesWhere
end Log

open Course Run Session

variable {ω α β : Type} {p : Parties ω} {s s' : Session (Log × ω)}

theorem Session.Beside.unlinked (h : Beside Duty.isBeside s s') :
    ∃ new, s'.log = s.log ++ new ∧ Log.Unlinked new := by
  obtain ⟨new, hlog, hd⟩ := h.log
  exact ⟨new, hlog, fun d hmem => Duty.isLinking_of_isBeside (hd d hmem)⟩

theorem Session.Beside.executesWhere {R : Log → Prop} (h : Beside Duty.isApart s s') :
    Log.ExecutesWhere R s.log s'.log := by
  obtain ⟨new, hlog, hd⟩ := h.log
  rw [hlog]
  exact .of_unexecuted fun d hmem => Duty.isExecute_of_isApart (hd d hmem)

theorem Session.Apart.unlinked (h : Apart s s') :
    ∃ new, s'.log = s.log ++ new ∧ Log.Unlinked new :=
  (h.toBeside.mono Duty.isBeside_of_isApart).unlinked

namespace Link

theorem Connected.setUp {hooks : Nat} {log : Log} (h : Connected hooks log) :
    Log.SetUp hooks log := by
  obtain ⟨before, options, after, rfl, hafter, hhooks⟩ := h
  exact ⟨before, options, after, rfl, fun d hd => Duty.isLinking_of_isSetup (hafter d hd), hhooks⟩

/-- Nothing is done towards a connection, and no connect returns. -/
def Unattempted (log : Log) : Prop :=
  Log.Unlinked log ∧ ∀ options x, .returned (.connect options) x ∉ log

def Fails (log : Log) : Prop := .disconnect ∉ Log.calls log ∧ Log.Failed log

variable {a b : Log}

theorem Unattempted.append (ha : Unattempted a) (hb : Unattempted b) : Unattempted (a ++ b) :=
  ⟨ha.1.append hb.1, fun options x h =>
    (List.mem_append.mp h).elim (ha.2 options x) (hb.2 options x)⟩

theorem Unattempted.fails (h : Unattempted a) : Fails a :=
  ⟨fun hd => absurd (h.1 _ hd) (by simp [Duty.isLinking]), .inl fun options => h.2 options _⟩

theorem Fails.after (hb : Fails b) (ha : Unattempted a) : Fails (a ++ b) := by
  refine ⟨?_, ?_⟩
  · rw [Log.calls_append, List.mem_append]
    exact fun h => h.elim ha.fails.1 hb.1
  · rcases hb.2 with hnone | ⟨i, stop, h⟩
    · exact .inl fun options h =>
        (List.mem_append.mp h).elim (ha.2 options _) (hnone options)
    · exact .inr ⟨i, stop, List.mem_append_right _ h⟩

theorem Fails.append (ha : Fails a) (hb : Unattempted b) : Fails (a ++ b) := by
  refine ⟨?_, ?_⟩
  · rw [Log.calls_append, List.mem_append]
    exact fun h => h.elim ha.1 hb.fails.1
  · rcases ha.2 with hnone | ⟨i, stop, h⟩
    · exact .inl fun options h =>
        (List.mem_append.mp h).elim (hnone options) (hb.2 options _)
    · exact .inr ⟨i, stop, List.mem_append_left _ h⟩

end Link

def Course.unattempting (ω : Type) : Course (Log × ω) :=
  .ofGrowth (fun s s' => ∃ new, s'.log = s.log ++ new ∧ Link.Unattempted new)
    (fun s => ⟨[], by simp, by simp [Link.Unattempted, Log.Unlinked]⟩)
    (by
      rintro a b c ⟨new, hlog, hnew⟩ ⟨new', hlog', hnew'⟩
      exact ⟨new ++ new', by rw [hlog', hlog, List.append_assoc], hnew.append hnew'⟩)

namespace Link

theorem unattempting_permits {d : Duty} (h : d.isLinking = false) :
    (unattempting ω).Permits p d := by
  refine permits_of fun {x new s s'} ht => ?_
  have hnew : Unattempted new := by
    refine ⟨by rw [Log.Unlinked, ht.calls]; simpa using h, fun options y hy => ?_⟩
    rw [← (ht.returned hy).1] at h
    cases h
  exact allows_of_panics ⟨new, ht.log, hnew⟩ ⟨new, ht.log, hnew⟩

theorem unattempted_announce (n : ConnectionNotice) :
    Follows (unattempting ω) (announce p.logged n) :=
  follows_announce fun i => unattempting_permits (d := .notice i n) rfl

theorem stops_announce (p : Parties ω) (n : ConnectionNotice) : Stops (· = .hang) (announce p n) :=
  stops_forM _ fun _ => stops_shielded _

variable {stop : Stop}

/-- One of the hooks is the first that does not set the connection up. -/
theorem onConnected_fails {hooks : List (Hook (Log × ω))}
    (hhooks : ∀ hook ∈ hooks, ∃ i h, hook = Hook.logged i h)
    (hrun : hooks.forM (fun hook => party p.logged hook.onConnected) s = (.error stop, s'))
    (hstop : stop ≠ .hang) : ∃ new, s'.log = s.log ++ new ∧ .disconnect ∉ Log.calls new ∧
      ∃ i, .returned (.onConnected i) (.error stop) ∈ new := by
  induction hooks generalizing s with
  | nil => cases hrun
  | cons hook hooks ih =>
    obtain ⟨i, hook, rfl⟩ := hhooks _ (List.mem_cons_self ..)
    have hturn : ∃ new, Turned (.onConnected i)
        ((party p.logged (Hook.logged i hook).onConnected s).1.map fun _ => ()) new s
        (party p.logged (Hook.logged i hook).onConnected s).2 :=
      party_logged p (.onConnected i) hook.onConnected s
    obtain ⟨new, hturned⟩ := hturn
    have hcalls : .disconnect ∉ Log.calls new := by simp [hturned.calls]
    rw [List.forM, bind_apply] at hrun
    rcases hr : party p.logged (Hook.logged i hook).onConnected s with ⟨stop' | _, s₁⟩ <;>
      rw [hr] at hrun hturned
    · cases hrun
      refine ⟨new, hturned.log, hcalls, i, ?_⟩
      obtain ⟨asides, -, rfl | ⟨hhang, -⟩⟩ := hturned.entries
      · simp [Except.map]
      · exact absurd (Except.error.inj hhang) hstop
    · obtain ⟨new', hlog, hcalls', j, hj⟩ :=
        ih (fun hook hmem => hhooks hook (List.mem_cons_of_mem _ hmem)) hrun
      exact ⟨new ++ new', by rw [hlog, hturned.log, List.append_assoc], by simp [hcalls, hcalls'],
        j, List.mem_append_right _ hj⟩

theorem establish_fails (hrun : establish p.logged s = (.error stop, s')) (hstop : stop ≠ .hang) :
    ∃ new, s'.log = s.log ++ new ∧ Fails new := by
  have hturn : ∃ new, Turned (.connect s.link.options)
      ((party p.logged (p.logged.backend.connect s.link.options) s).1.map fun _ => ()) new s
      (party p.logged (p.logged.backend.connect s.link.options) s).2 :=
    party_logged p (.connect s.link.options) (p.backend.connect s.link.options) s
  obtain ⟨new, hturned⟩ := hturn
  have hcalls : .disconnect ∉ Log.calls new := by simp [hturned.calls]
  unfold establish at hrun
  rw [get_bind_apply, bind_apply] at hrun
  rcases hr : party p.logged (p.logged.backend.connect s.link.options) s with ⟨stop' | _, s₁⟩ <;>
    rw [hr] at hrun hturned
  · cases hrun
    refine ⟨new, hturned.log, hcalls, .inl fun options h => ?_⟩
    cases (hturned.returned h).2
  · obtain ⟨new', hlog, hcalls', i, hi⟩ := onConnected_fails (fun hook hhook => by
      obtain ⟨i, hi, rfl⟩ := List.mem_mapIdx.mp hhook
      exact ⟨i, _, rfl⟩) hrun hstop
    exact ⟨new ++ new', by rw [hlog, hturned.log, List.append_assoc], by simp [hcalls, hcalls'],
      .inr ⟨i, stop, List.mem_append_right _ hi⟩⟩

/-- Before a part that is no attempt there may be any number of others. -/
theorem fails_bind {m : Run (Log × ω) α} {f : α → Run (Log × ω) β}
    (hm : Follows (unattempting ω) m)
    (hf : ∀ {a s s'}, f a s = (.error stop, s') → ∃ new, s'.log = s.log ++ new ∧ Fails new)
    (hrun : (m >>= f) s = (.error stop, s')) (hstop : stop ≠ .hang) :
    ∃ new, s'.log = s.log ++ new ∧ Fails new := by
  have hgoes := hm s
  rw [bind_apply] at hrun
  rcases hr : m s with ⟨stop' | a, s₁⟩ <;> rw [hr] at hrun hgoes
  · cases hrun
    obtain ⟨new, hlog, hnew⟩ := hgoes.goes (by simpa using hstop)
    exact ⟨new, hlog, hnew.fails⟩
  · obtain ⟨new, hlog, hnew⟩ := hgoes
    obtain ⟨new', hlog', hnew'⟩ := hf hrun
    exact ⟨new ++ new', by rw [hlog', hlog, List.append_assoc], hnew'.after hnew⟩

theorem tryConnect_fails {attempt : Attempt}
    (hrun : tryConnect p.logged attempt s = (.error stop, s')) (hstop : stop ≠ .hang) :
    ∃ new, s'.log = s.log ++ new ∧ Fails new := by
  refine fails_bind (follows_hooks fun i hook => follows_always
    (unattempting_permits (d := .onConnect i) rfl _)) (fun {_ s s'} hrun => ?_) hrun hstop
  refine fails_bind (unattempted_announce _) (fun {_ s s'} hrun => ?_) hrun hstop
  rw [bind_apply, Run.attempt] at hrun
  rcases hr : establish p.logged s with ⟨(e | q | _) | _, s₁⟩ <;> rw [hr] at hrun
  · obtain ⟨new, hlog, hnew⟩ := establish_fails hr (by simp)
    have htold : Follows (unattempting ω) (do
        p.logged.hooks.forM fun hook => always (party p.logged (hook.onFailed e))
        announce p.logged (.failed attempt e)
        raise e : Run (Log × ω) Unit) :=
      follows_bind (follows_hooks fun i hook => follows_always
        (unattempting_permits (d := .onFailed i e) rfl _)) fun _ =>
        follows_bind (unattempted_announce _) fun _ => follows_raise e
    obtain ⟨new', hlog', hnew'⟩ := htold.goes hrun (by simpa using hstop)
    exact ⟨new ++ new', by rw [hlog', hlog, List.append_assoc], hnew.append hnew'⟩
  · cases hrun
    exact establish_fails hr hstop
  · cases hrun
    exact absurd rfl hstop
  · -- the observers who are told of the connection cannot spoil it
    change announce p.logged (.connected attempt) s₁ = _ at hrun
    exact absurd (stops_announce p.logged (.connected attempt) s₁ stop (by rw [hrun])) hstop

theorem disconnect_turned (s : Session (Log × ω)) :
    ∃ rest, (always (party p.logged p.logged.backend.disconnect) s).2.log =
      s.log ++ .called .disconnect :: rest ∧ Unattempted rest := by
  have hturn : ∃ new, Turned .disconnect
      ((party p.logged p.logged.backend.disconnect s).1.map fun _ => ()) new s
      (party p.logged p.logged.backend.disconnect s).2 :=
    party_logged p .disconnect p.backend.disconnect s
  obtain ⟨new, hturned⟩ := hturn
  have hnone : ∀ options x, .returned (.connect options) x ∉ new := fun options x h => by
    cases (hturned.returned h).1
  rw [always_snd]
  obtain ⟨asides, hside, rfl | ⟨-, rfl⟩⟩ := hturned.entries
  all_goals
    refine ⟨_, hturned.log, ?_, fun options x h => hnone options x (List.mem_cons_of_mem _ h)⟩
    simp [Log.Unlinked, Log.calls_asides hside]

theorem reconnectOnce_links {cause : ReconnectCause} {x : Except Stop Unit}
    (hrun : reconnectOnce p.logged cause s = (x, s')) (hx : x ≠ .error .hang) :
    ∃ new, s'.log = s.log ++ new ∧ Log.Links p.hooks.length new := by
  rcases x with stop | _
  · have hstop : stop ≠ .hang := by simpa using hx
    obtain ⟨rest, hlog, hrest⟩ := disconnect_turned (p := p) s
    have hbroken : ∀ {tried : Log}, Fails tried → Log.Links p.hooks.length
        (.called .disconnect :: tried) := fun {tried} h =>
      .broken ⟨[], tried, [], by simp, h.1, h.2, by simp [Log.Unlinked]⟩
    rw [reconnectOnce, bind_apply] at hrun
    rcases hr : always (party p.logged p.logged.backend.disconnect) s with ⟨_ | _, s₁⟩ <;>
      rw [hr] at hrun hlog
    · cases hrun
      exact ⟨_, hlog, hbroken hrest.fails⟩
    · dsimp only at hrun hlog
      rw [bind_apply] at hrun
      rcases hr' : tryConnect p.logged (.reconnect cause) s₁ with ⟨_ | _, s₂⟩ <;>
        rw [hr'] at hrun <;> cases hrun
      obtain ⟨new, hlog', hnew⟩ := tryConnect_fails hr' hstop
      exact ⟨.called .disconnect :: (rest ++ new), by rw [hlog', hlog]; simp,
        hbroken (hnew.after hrest)⟩
  · obtain ⟨new, hlog, hnew⟩ := gains_reconnectOnce p cause s () s' hrun
    exact ⟨new, hlog, .setUp hnew.setUp⟩

end Link

namespace Session

/-- What has become of the connection between the one state and the other. -/
def Links (hooks : Nat) (s s' : Session (Log × ω)) : Prop :=
  ∃ new, s'.log = s.log ++ new ∧ Log.Links hooks new

variable {hooks : Nat}

theorem Links.trans {a b c : Session (Log × ω)} (h : Links hooks a b) (h' : Links hooks b c) :
    Links hooks a c := by
  obtain ⟨new, hlog, hnew⟩ := h
  obtain ⟨new', hlog', hnew'⟩ := h'
  exact ⟨new ++ new', by rw [hlog', hlog, List.append_assoc], hnew.append hnew'⟩

theorem Links.of_unlinked (h : ∃ new, s'.log = s.log ++ new ∧ Log.Unlinked new) :
    Links hooks s s' := by
  obtain ⟨new, hlog, hnew⟩ := h
  exact ⟨new, hlog, .none hnew⟩

theorem Links.refl (s : Session (Log × ω)) : Links hooks s s :=
  .of_unlinked ⟨[], by simp, by simp [Log.Unlinked]⟩

end Session

/-- The course of what has become of the connection. Nothing is said about what does not come
back. -/
def Course.linking (ω : Type) (hooks : Nat) : Course (Log × ω) :=
  .plain (Session.Links hooks) (fun _ _ => True) .refl .trans fun _ _ => trivial

namespace Link

theorem links_of_runs {m : Run (Log × ω) α} {hooks : Nat}
    (hm : ∀ {s x s'}, m s = (x, s') → x ≠ .error .hang → Session.Links hooks s s') :
    Follows (linking ω hooks) m := by
  intro s
  rcases hrun : m s with ⟨(_ | _ | _) | _, s'⟩
  case error.hang => trivial
  all_goals exact hm hrun (by simp)

theorem links_of_unlinked {m : Run (Log × ω) α} {hooks : Nat}
    (hm : Follows (calling ω fun d => d.isLinking = false) m) : Follows (linking ω hooks) m :=
  links_of_runs fun hrun hx => .of_unlinked (hm.goes hrun hx)

theorem linking_permits {hooks : Nat} {d : Duty} (h : d.isLinking = false) :
    (linking ω hooks).Permits p d := fun m =>
  links_of_unlinked (calling_permits (P := fun d => d.isLinking = false) p h m)

theorem links_reconnect (cause : ReconnectCause) :
    Follows (linking ω p.hooks.length) (reconnect p.logged cause) := by
  have honce : Follows (linking ω p.hooks.length) (reconnectOnce p.logged cause) :=
    links_of_runs reconnectOnce_links
  have hupTo : ∀ more, Follows (linking ω p.hooks.length) (reconnectUpTo p.logged cause more) := by
    intro more
    induction more with
    | zero => exact honce
    | succ more ih =>
      refine follows_bind (follows_attempt honce) fun r => ?_
      cases r with
      | ok _ => exact follows_pure ()
      | error _ => exact ih
  exact follows_bind follows_ensureHeld fun _ => follows_bind follows_get fun _ => hupTo _

theorem links_restore : Follows (linking ω p.hooks.length) (restore p.logged) := by
  refine follows_bind follows_get fun s => ?_
  split
  · refine follows_bind (follows_attempt (links_reconnect _)) fun r => ?_
    cases r <;> exact follows_pure _
  · exact follows_pure false

theorem calling_publish {P : Duty → Prop} (hP : ∀ d, d.isPublishing = true → P d) :
    Follows (calling ω P) (publish p.logged) :=
  follows_publish (fun d hd => calling_permits p (hP d hd)) fun _ _ =>
    ⟨[], by simp [Session.log], by simp⟩

theorem unexecuted (p : Parties ω) :
    Covers (calling ω fun d => d.isExecute = false) p fun _ => true :=
  covers_calling p _ fun _ => Duty.isExecute_of_isConnecting

theorem restore_executesWhere {R : Log → Prop} {x : Except Stop Bool}
    (hrun : restore p.logged s = (x, s')) (hx : x ≠ .error .hang) :
    Log.ExecutesWhere R s.log s'.log := by
  have hrestore : Follows (calling ω fun d => d.isExecute = false) (restore p.logged) :=
    follows_restore (unexecuted p) rfl
  obtain ⟨new, hlog, hnew⟩ := hrestore.goes hrun hx
  rw [hlog]
  exact .of_unexecuted hnew

end Link

namespace Task

/-- Where a task that was begun with this log may run a statement: so many hooks have set up the
connection that it has made since, or it has left the connection alone. -/
def Ready (hooks : Nat) (begun log : Log) : Prop :=
  ∃ found, log = begun ++ found ∧ (Log.SetUp hooks found ∨ Log.Unlinked found)

/-- The statements in between were run where the task may run them. -/
abbrev Careful (hooks : Nat) (begun : Log) : Log → Log → Prop :=
  Log.ExecutesWhere (Ready hooks begun)

variable {hooks : Nat} {begun log new : Log}

theorem ready_refl (log : Log) : Ready hooks log log :=
  ⟨[], by simp, .inr (by simp [Log.Unlinked])⟩

theorem Ready.append (h : Ready hooks begun log) (hnew : Log.Unlinked new) :
    Ready hooks begun (log ++ new) := by
  obtain ⟨found, rfl, hfound⟩ := h
  exact ⟨found ++ new, List.append_assoc .., hfound.imp (·.append hnew) (·.append hnew)⟩

theorem Ready.careful (h : Ready hooks begun log) (hnew : Log.Unlinked new) :
    Careful hooks begun log (log ++ new) := by
  refine ⟨new, rfl, ?_⟩
  rintro found sql params later rfl
  exact h.append hnew.left

/-- A connection that is back is set up. -/
theorem Ready.restored (h : Ready p.hooks.length begun s.log)
    (hrun : Link.restore p.logged s = (.ok true, s')) : Ready p.hooks.length begun s'.log := by
  obtain ⟨found, hlog, -⟩ := h
  obtain ⟨-, new, hlog', hnew⟩ := Link.restore_connected p s s' hrun
  exact ⟨found ++ new, by rw [hlog', hlog, List.append_assoc], .inl (hnew.setUp.after found)⟩

/-- A computation that is begun where statements may be run runs its own where they may be. -/
def ExecutesReady (hooks : Nat) (begun : Log) (m : Run (Log × ω) α) : Prop :=
  ∀ ⦃s x s'⦄, m s = (x, s') → x ≠ .error .hang → Ready hooks begun s.log →
    Careful hooks begun s.log s'.log

/-- It also comes to a value only where further ones may be. -/
def StaysReady (hooks : Nat) (begun : Log) (m : Run (Log × ω) α) : Prop :=
  ∀ ⦃s x s'⦄, m s = (x, s') → x ≠ .error .hang → Ready hooks begun s.log →
    Careful hooks begun s.log s'.log ∧ ∀ a, x = .ok a → Ready hooks begun s'.log

theorem StaysReady.executes {m : Run (Log × ω) α} (h : StaysReady hooks begun m) :
    ExecutesReady hooks begun m :=
  fun _ _ _ hrun hx hs => (h hrun hx hs).1

theorem staysReady_of_beside {m : Run (Log × ω) α} (hm : Follows (beside ω Duty.isBeside) m) :
    StaysReady hooks begun m := by
  intro s x s' hrun hx hs
  obtain ⟨new, hlog, hnew⟩ := (hm.goes hrun hx).unlinked
  rw [hlog]
  exact ⟨hs.careful hnew, fun _ _ => hs.append hnew⟩

theorem staysReady_of_apart {m : Run (Log × ω) α} (hm : Follows (apart ω) m) :
    StaysReady hooks begun m :=
  staysReady_of_beside (beside_of_apart Duty.isBeside_of_isApart hm)

theorem staysReady_raise (e : Error) :
    StaysReady hooks begun (raise e : Run (Log × ω) α) := by
  intro s x s' hrun _ _
  cases hrun
  exact ⟨.refl _, fun a ha => by cases ha⟩

theorem staysReady_bind {m : Run (Log × ω) α} {f : α → Run (Log × ω) β}
    (hm : StaysReady hooks begun m) (hf : ∀ a, StaysReady hooks begun (f a)) :
    StaysReady hooks begun (m >>= f) := by
  intro s x s' hrun hx hs
  rw [bind_apply] at hrun
  rcases hms : m s with ⟨stop | a, s₁⟩ <;> rw [hms] at hrun
  · cases hrun
    exact ⟨(hm hms (by simpa using hx) hs).1, fun b hb => by cases hb⟩
  · obtain ⟨hcareful, hready⟩ := hm hms (by simp) hs
    obtain ⟨hcareful', hend⟩ := hf a hrun hx (hready a rfl)
    exact ⟨hcareful.trans hcareful', hend⟩

theorem executesReady_bind {m : Run (Log × ω) α} {f : α → Run (Log × ω) β}
    (hm : StaysReady hooks begun m) (hf : ∀ a, ExecutesReady hooks begun (f a)) :
    ExecutesReady hooks begun (m >>= f) := by
  intro s x s' hrun hx hs
  rw [bind_apply] at hrun
  rcases hms : m s with ⟨stop | a, s₁⟩ <;> rw [hms] at hrun
  · cases hrun
    exact (hm hms (by simpa using hx) hs).1
  · obtain ⟨hcareful, hready⟩ := hm hms (by simp) hs
    exact hcareful.trans (hf a hrun hx (hready a rfl))

theorem Stretch.careful (h : Stretch Duty.isApart p s s') : Careful hooks begun s.log s'.log := by
  induction h with
  | refl => exact .refl _
  | beside _ hbeside ih => exact ih.trans hbeside.executesWhere
  | restored _ hrun hx ih => exact ih.trans (Link.restore_executesWhere hrun hx)

theorem executesReady_then {m : Run (Log × ω) α} {f : α → Run (Log × ω) β}
    (hm : ExecutesReady hooks begun m) (hf : ∀ a, Follows (stretch Duty.isApart p) (f a)) :
    ExecutesReady hooks begun (m >>= f) := by
  intro s x s' hrun hx hs
  rw [bind_apply] at hrun
  rcases hms : m s with ⟨stop | a, s₁⟩ <;> rw [hms] at hrun
  · cases hrun
    exact hm hms (by simpa using hx) hs
  · exact (hm hms (by simp) hs).trans (Stretch.careful ((hf a).goes hrun hx))

theorem executesReady_attempt {m : Run (Log × ω) α} (hm : ExecutesReady hooks begun m) :
    ExecutesReady hooks begun (attempt m) := by
  intro s x s' hrun hx hs
  unfold attempt at hrun
  rcases hms : m s with ⟨(_ | _ | _) | _, s₁⟩ <;> rw [hms] at hrun <;> cases hrun
  case error.hang => exact absurd rfl hx
  all_goals exact hm hms (by simp) hs

theorem executesReady_guarded {m : Run (Log × ω) α} (hm : ExecutesReady hooks begun m) :
    ExecutesReady hooks begun (guarded m) := by
  intro s x s' hrun hx hs
  unfold guarded at hrun
  rcases hms : m s with ⟨(_ | _ | _) | _, s₁⟩ <;> rw [hms] at hrun <;> cases hrun
  case error.hang => exact absurd rfl hx
  all_goals exact hm hms (by simp) hs

end Task

open DatabaseSession.Task

namespace Query

variable {begun : Log}

theorem beside_attemptStatement (p : Parties ω) (q : Query) (sql : String) (last : Bool) :
    Follows (beside ω Duty.isBeside) (attemptStatement p.logged q sql last) :=
  follows_attemptStatement (beside_reads p).toFetching q sql last fun started =>
    follows_readSets (beside_reads p) Beside.refl q sql last started _

/-- A statement is run again only once the connection is back. -/
theorem staysReady_afterFailure (sql : String) (e : Error) {again : Option (Run (Log × ω) Unit)}
    (hagain : ∀ retry ∈ again, StaysReady p.hooks.length begun retry) :
    StaysReady p.hooks.length begun (afterFailure p.logged sql e again) := by
  refine staysReady_bind (staysReady_of_apart follows_get) fun s => ?_
  split
  · exact staysReady_raise _
  · cases again with
    | none => exact staysReady_raise e
    | some retry =>
      dsimp only
      split
      · intro s x s' hrun hx hs
        rw [bind_apply] at hrun
        rcases hr : Link.restore p.logged s with ⟨stop | _ | _, s₁⟩ <;> rw [hr] at hrun
        · cases hrun
          exact ⟨Link.restore_executesWhere hr (by simpa using hx), fun a ha => by cases ha⟩
        · cases hrun
          exact ⟨Link.restore_executesWhere hr (by simp), fun a ha => by cases ha⟩
        · obtain ⟨hcareful, hend⟩ := hagain retry rfl hrun hx (hs.restored hr)
          exact ⟨(Link.restore_executesWhere hr (by simp)).trans hcareful, hend⟩
      · exact staysReady_raise e

theorem staysReady_runWithRetries (q : Query) (sql : String) (last : Bool) (retries : Nat) :
    StaysReady p.hooks.length begun (runWithRetries p.logged q sql last retries) := by
  have hattempt :
      StaysReady p.hooks.length begun (attempt (attemptStatement p.logged q sql last)) :=
    staysReady_of_beside (follows_attempt (beside_attemptStatement p q sql last))
  induction retries with
  | zero =>
    refine staysReady_bind hattempt fun r => ?_
    cases r with
    | ok _ => exact staysReady_of_apart (follows_pure ())
    | error e => exact staysReady_afterFailure sql e (by simp)
  | succ retries ih =>
    refine staysReady_bind hattempt fun r => ?_
    cases r with
    | ok _ => exact staysReady_of_apart (follows_pure ())
    | error e => exact staysReady_afterFailure sql e (by simpa using ih)

theorem staysReady_runStatements (q : Query) (statements : List String) :
    StaysReady p.hooks.length begun (runStatements p.logged q statements) := by
  induction statements with
  | nil => exact staysReady_of_apart (follows_pure ())
  | cons sql rest ih =>
    exact staysReady_bind (staysReady_of_apart (apart_update _)) fun _ =>
      staysReady_bind (staysReady_of_apart follows_get) fun s =>
        staysReady_bind (staysReady_runWithRetries q sql _ _) fun _ => ih

theorem staysReady_run (q : Query) : StaysReady p.hooks.length begun (q.run p.logged) := by
  unfold run
  split
  · exact staysReady_of_apart (apart_emit _ _ _ _)
  · exact staysReady_runStatements q _

end Query

namespace Task

variable {begun : Log}

theorem stretch_of_apart {m : Run (Log × ω) α} (h : Follows (apart ω) m) :
    Follows (stretch Duty.isApart p) m :=
  stretch_of_beside (beside_of_apart (fun h => h) h)

theorem apart_clockOff (started : Nat) : Follows (apart ω) (clockOff p.logged started) :=
  follows_bind (follows_now _) fun _ => apart_update _

theorem apart_runSchema (action : SchemaRequest) :
    Follows (apart ω) (runSchema p.logged action) := by
  have hread : Follows (apart ω) (valueOr none (party p.logged p.logged.backend.currentSchema)) :=
    follows_valueOr none (apart_permits (d := .currentSchema) rfl _)
  cases action with
  | current => exact hread
  | setCurrent schema =>
    exact follows_bind (apart_permits (d := .setCurrentSchema schema) rfl _) fun _ => hread

theorem apart_fail (e : Error) : Follows (apart ω) (fail p.logged e) := by
  refine follows_bind follows_get fun s => ?_
  cases s.active.work with
  | query _ | schema _ => exact apart_endInError e
  | custom key => exact follows_always (apart_permits (d := .failErrand key e) rfl _)

theorem executesReady_conclude (started : Nat) {m : Run (Log × ω) α}
    {finish : α → Run (Log × ω) Unit} (hm : ExecutesReady p.hooks.length begun m)
    (hfinish : ∀ a, Follows (apart ω) (finish a)) :
    ExecutesReady p.hooks.length begun (conclude p.logged started m finish) := by
  refine executesReady_then (p := p) (executesReady_attempt hm) fun r => stretch_of_apart ?_
  refine follows_bind (apart_clockOff started) fun _ => ?_
  cases r with
  | ok a => exact hfinish a
  | error e => exact apart_endInError e

theorem executesReady_execute : ExecutesReady p.hooks.length begun (execute p.logged) := by
  intro s x s' hrun hx hs
  have hbuiltIn : ∀ w : Work, ExecutesReady p.hooks.length begun (do
      let started ← now p.logged
      emit p.logged .pending (some startedMessage) none none
      pursue p.logged started w : Run (Log × ω) Unit) := by
    intro w
    refine executesReady_bind (staysReady_of_apart (follows_now _)) fun started =>
      executesReady_bind (staysReady_of_apart (apart_emit _ _ _ _)) fun _ => ?_
    cases w with
    | query q =>
      exact executesReady_conclude started (Query.staysReady_run q).executes
        fun _ => follows_pure ()
    | schema action =>
      exact executesReady_conclude started (staysReady_of_apart (apart_runSchema action)).executes
        fun _ => apart_emit _ _ _ _
    | custom key => exact (staysReady_of_apart (follows_pure ())).executes
  cases hw : s.active.work with
  | query q | schema action =>
    rw [execute_builtIn p.logged s (by rw [hw]; rfl)] at hrun
    exact hbuiltIn _ hrun hx hs
  | custom key =>
    unfold execute at hrun
    rw [get_bind_apply, hw] at hrun
    have herrand : Follows (stretch Duty.isApart p) (always (runErrand p.logged key)) :=
      follows_always (stretch_errand (fun h => h) key)
    exact Stretch.careful (herrand.goes hrun hx)

theorem executesReady_undertake (cancelled : Bool) :
    ExecutesReady p.hooks.length begun (undertake p.logged cancelled) := by
  refine executesReady_then (p := p) (executesReady_guarded ?_) fun r => stretch_of_apart ?_
  · cases cancelled
    · exact executesReady_execute
    · exact (staysReady_of_apart apart_cancel).executes
  · cases r with
    | ok _ => exact follows_pure ()
    | error q => exact follows_shielded (apart_fail _)

/-- A task runs a statement only if it has left the connection alone, or if the latest attempt at
another one succeeded. -/
theorem executesReady_perform (t : Task) :
    ExecutesReady p.hooks.length begun (perform p.logged t) := by
  intro s x s' hrun hx hs
  have hannounce : ∀ phase, Follows (apart ω) (announce p.logged phase t.requestId) := fun phase =>
    follows_announce fun i => apart_permits rfl
  have hhold : Follows (beside ω Duty.isBeside) (modify holdStats : Run (Log × ω) Unit) :=
    follows_modify fun s => Beside.of_eq rfl rfl
  have haccount : Follows (stretch Duty.isApart p) (account p.logged) :=
    Performs.follows_account (fun key _ m => stretch_of_beside (beside_permits rfl m))
      (fun _ _ _ => .ofBeside (.of_eq rfl rfl)) fun _ => trivial
  have hperform : ExecutesReady p.hooks.length begun (do
      announce p.logged .started t.requestId
      modify holdStats
      undertake p.logged (marked t s)
      account p.logged
      announce p.logged .finished t.requestId) :=
    executesReady_bind (staysReady_of_apart (hannounce _)) fun _ =>
      executesReady_bind (staysReady_of_beside hhold) fun _ =>
        executesReady_then (executesReady_undertake _) fun _ =>
          follows_bind haccount fun _ => stretch_of_apart (hannounce _)
  rw [perform_eq] at hrun
  exact hperform (s := takeUp t s) hrun hx hs

end Task

namespace Session

theorem calling_of_apart {P : Duty → Prop} (hP : ∀ {d : Duty}, d.isApart = true → P d)
    {m : Run (Log × ω) α} (h : Follows (apart ω) m) : Follows (calling ω P) m := by
  intro s
  have hgoes : ∀ {s'}, Apart s s' → (calling ω P).Goes s s' := fun h => by
    obtain ⟨new, hlog, hd⟩ := h.log
    exact ⟨new, hlog, fun d hmem => hP (hd d hmem)⟩
  have hs := h s
  rcases hr : m s with ⟨(_ | _ | _) | _, s'⟩ <;> rw [hr] at hs <;> exact hgoes hs

theorem linking_tends (hooks : Nat) : Tends (linking ω hooks) p where
  inner h := .of_unlinked h.apart.unlinked
  teardown _ hd := Link.linking_permits
    (Duty.isLinking_of_isBeside (Duty.isBeside_of_isApart (Duty.isApart_of_isTeardown hd)))
  cancels := Link.links_of_unlinked (calling_of_apart
    (fun h => Duty.isLinking_of_isBeside (Duty.isBeside_of_isApart h)) Task.apart_cancel)
  panics := .refl
  stuck _ := trivial
  stops _ := trivial

theorem links_stretch (h : Task.Stretch Duty.isBeside p s s') : Links p.hooks.length s s' := by
  induction h with
  | refl => exact .refl s
  | beside _ hbeside ih => exact ih.trans (.of_unlinked hbeside.unlinked)
  | restored _ hrun hx ih => exact ih.trans (Link.links_restore.goes hrun hx)

/-- Whatever it is done for, unless the session is opened, a reconnect that fails is one that a hook
has failed in or that has not got to the hooks. -/
theorem links_carryOut {k : Purpose} (hk : k ≠ .opening) :
    Follows (linking ω p.hooks.length) (k.carryOut p.logged) := by
  cases k with
  | opening => exact absurd rfl hk
  | renewal options =>
    refine follows_bind ((linking_tends (p := p) _).follows_inner fun s => ?_) fun _ =>
      follows_bind (Link.links_reconnect .user) fun _ => Link.links_of_unlinked
        (Link.calling_publish fun _ => Duty.isLinking_of_isPublishing)
    cases options <;> exact .of_eq rfl
  | task t => exact Link.links_of_runs fun hrun hx => links_stretch (Task.perform_stretch hrun hx)
  | probe =>
    exact Service.follows_handleProbe (linking_tends _) (Link.linking_permits rfl) fun _ hgoes =>
      (Link.links_restore _).after hgoes
  | other => exact follows_pure ()

theorem unexecuted_tends : Tends (calling ω fun d => d.isExecute = false) p where
  inner h := by
    obtain ⟨new, hlog, hcalls⟩ := h.log
    exact ⟨new, hlog, by simp [hcalls]⟩
  teardown _ hd := calling_permits p (Duty.isExecute_of_isApart (Duty.isApart_of_isTeardown hd))
  cancels := calling_of_apart Duty.isExecute_of_isApart Task.apart_cancel
  panics s := (calling ω _).refl s
  stuck s := (calling ω _).refl s
  stops h := h

theorem unexecuted_carryOut {k : Purpose} (hk : ∀ t, k ≠ .task t) :
    Follows (calling ω fun d => d.isExecute = false) (k.carryOut p.logged) := by
  have hcovers := Link.unexecuted p
  have hpublish : Follows (calling ω fun d => d.isExecute = false) (Link.publish p.logged) :=
    Link.calling_publish fun _ => Duty.isExecute_of_isPublishing
  cases k with
  | opening => exact follows_bind (Link.follows_connect hcovers rfl) fun _ => hpublish
  | renewal options =>
    refine follows_bind (unexecuted_tends.follows_inner (p := p) fun s => ?_) fun _ =>
      follows_bind (Link.follows_reconnect hcovers rfl) fun _ => hpublish
    cases options <;> exact .of_eq rfl
  | task t => exact absurd rfl (hk t)
  | probe =>
    exact Service.follows_handleProbe unexecuted_tends
      (calling_permits (P := fun d => d.isExecute = false) p rfl)
      fun _ hgoes => (Link.follows_restore hcovers rfl _).after hgoes
  | other => exact follows_pure ()

namespace Deed

variable {k : Purpose} {a : Session (Log × ω)} {x : Except Stop Unit}

theorem links (h : Deed p s k a x s') (hx : x ≠ .error .hang) (hk : k ≠ .opening) :
    Links p.hooks.length s s' := h.goes hx (linking_tends _) (links_carryOut hk)

theorem unexecuted (h : Deed p s k a x s') (hx : x ≠ .error .hang) (hk : ∀ t, k ≠ .task t) :
    ∃ new, s'.log = s.log ++ new ∧ ∀ d ∈ Log.calls new, d.isExecute = false :=
  h.goes hx unexecuted_tends (unexecuted_carryOut hk)

theorem careful {t : Task} (h : Deed p s (.task t) a x s') (hx : x ≠ .error .hang) :
    Task.Careful p.hooks.length s.log s.log s'.log := by
  obtain ⟨y, b, hcarry, hy, hafter⟩ := h.carriesOut hx
  obtain ⟨new, hlog, hnew⟩ := h.begins.apart.unlinked
  have hready : Task.Ready p.hooks.length s.log a.log := ⟨new, hlog, .inr hnew⟩
  have hperform := Task.executesReady_perform t hcarry hy hready
  exact (h.begins.apart.toBeside.executesWhere.trans hperform).trans
    (hafter apart_tends).toBeside.executesWhere

end Deed

/-- Unless nobody is left to work in it, a session that is started has a connection that every hook
has set up. -/
theorem start_setUp {x : Except Stop Unit} (hrun : start p.logged s = (x, s'))
    (hx : x ≠ .error .hang) (hlife : s.life = .idle) (hworker : Unattended s) :
    (∃ new, s'.log = s.log ++ new ∧ Log.SetUp p.hooks.length new) ∨ Vacant s' := by
  refine (start_made hrun hx hlife hworker).imp_left ?_
  rintro ⟨b, hopening⟩
  have hserves := start_performs (p := p) hlife
  rw [Performs, hrun] at hserves
  have hafter := (hserves.allows apart_tends).goes hx
  rw [hopening] at hafter
  obtain ⟨first, hfirst, -⟩ := (Inner.ofHeld s .opening).apart.unlinked
  obtain ⟨last, hlast, hunlinked⟩ := hafter.unlinked
  obtain ⟨_, s₁, hconnect, hpublish⟩ := exists_of_bind_ok hopening
  have hpublished : Follows (calling ω fun d => d.isLinking = false) (Link.publish p.logged) :=
    Link.calling_publish fun _ => Duty.isLinking_of_isPublishing
  obtain ⟨more, hmore, hleft⟩ := hpublished.goes hpublish (by simp)
  have hsince : Log.Unlinked (more ++ last) := Log.Unlinked.append hleft hunlinked
  have hgains : Link.Gains (Link.Connected p.hooks.length) (Link.connect p.logged) :=
    Link.gains_bind (fun h => h.after _) Link.follows_ensureHeld fun _ =>
      Link.gains_tryConnect p .opening
  obtain ⟨new, hnew, hconnected⟩ := hgains _ () s₁ hconnect
  refine ⟨first ++ (new ++ (more ++ last)), by rw [hlast, hmore, hnew, hfirst]; simp, ?_⟩
  exact (hconnected.setUp.append hsince).after first

/-- Nobody works in a session, neither its owner nor a worker. -/
def Untended (s : Session ω) : Prop := Unattended s ∧ s.life ≠ .inCaller

theorem Vacant.untended {s : Session ω} (h : Vacant s) : Untended s :=
  ⟨h.2, fun hl => h.1.not_owned (.inr hl)⟩

theorem Untended.attends {s s' : Session ω} (hs : Untended s) (h : Attends s s') :
    Untended s' := by
  refine ⟨h.receiving.trans hs.1, ?_⟩
  rcases h.life with hl | ⟨-, hl, -⟩ <;> rw [hl]
  · exact hs.2
  · simp

theorem Untended.ne_task {k : Purpose} {a : Session (Log × ω)} {x : Except Stop Unit}
    (hs : Untended s) (h : Deed p s k a x s') (t : Task) : k ≠ .task t := by
  rintro rfl
  generalize hk : Purpose.task t = k at h
  cases h with
  | @call c _ _ _ _ =>
    rcases c.purpose_cases s.life with hother | ⟨-, hopening⟩ | ⟨hinCaller, -⟩
    · cases hk.trans hother
    · cases hk.trans hopening
    · exact hs.2 hinCaller
  | work hattended _ =>
    have hunattended : s.mailbox.receiving = false := hs.1
    simp [hunattended] at hattended
  | closing _ | asking _ | tick | elsewhere _ => cases hk

/-- Where nobody works nobody comes to work, unless the session is started. -/
theorem Move.untended (h : Move p s s') (hs : Untended s) :
    Untended s' ∨
      s'.life ≠ .idle ∧ ∃ new, s'.log = s.log ++ new ∧ Log.SetUp p.hooks.length new := by
  cases h with
  | used h => exact .inl (hs.attends (h.quiet hs.2).toAttends)
  | starts hlife hrun hx =>
    rcases start_setUp hrun hx hlife hs.1 with hsetUp | hvacant
    · have hserves := start_performs (p := p) hlife
      rw [Performs, hrun] at hserves
      refine .inr ⟨fun hidle => ?_, hsetUp⟩
      cases hserves.told.begun hidle
    · exact .inl hvacant.untended
  | @closes x left hlife hfiled hrun hx =>
    have hleft := hs.attends hfiled.toAttends
    have hclosed : Vacant { left with life := .closed } := ⟨.inl rfl, hleft.1⟩
    exact .inl (closeHere_cases p hrun hx hclosed).1.untended
  | works hattended =>
    have hunattended : s.mailbox.receiving = false := hs.1
    simp [hunattended] at hattended

/-- The last episode that had to do with the connection: it was set up by every hook that there was,
or an attempt to reconnect failed. -/
inductive Grounded (life : List (Episode ω)) : Prop where
  | intro {earlier later : List (Episode ω)} {e : Episode ω} (hlife : life = earlier ++ e :: later)
      (hlinked : Log.SetUp e.parties.hooks.length e.entries ∨ Log.Broken e.entries)
      (hlater : ∀ d ∈ later, Log.Unlinked d.entries)

theorem Grounded.last {life : List (Episode ω)} {e : Episode ω}
    (h : Log.SetUp e.parties.hooks.length e.entries ∨ Log.Broken e.entries) :
    Grounded (life ++ [e]) := ⟨rfl, h, by simp⟩

theorem Grounded.step {life : List (Episode ω)} {e : Episode ω} (h : Grounded life)
    (hlinks : Links e.parties.hooks.length e.before e.after) : Grounded (life ++ [e]) := by
  obtain ⟨new, hlog, hnew⟩ := hlinks
  rw [← Episode.entries_of_log hlog] at hnew
  cases hnew with
  | none hunlinked =>
    obtain ⟨rfl, hlinked, hlater⟩ := h
    refine ⟨List.append_assoc .., hlinked, fun d hd => ?_⟩
    rcases List.mem_append.mp hd with hd | hd
    · exact hlater d hd
    · rwa [List.mem_singleton.mp hd]
  | setUp hsetUp => exact .last (.inl hsetUp)
  | broken hbroken => exact .last (.inr hbroken)

section Life

variable {id name : String} {options : Options} {settings : Settings} {w : ω}
variable {life : List (Episode ω)}

theorem Lives.grounded_or_untended
    (h : Lives (create id name options settings (([] : Log), w)) life s) :
    Grounded life ∧ s.life ≠ .idle ∨ Untended s := by
  induction h with
  | refl => exact .inr ⟨rfl, by simp [create]⟩
  | @step p k x life s₁ a s₂ hlives hdeed hx ih =>
    rcases ih with ⟨hgrounded, hbegun⟩ | huntended
    · refine .inl ⟨hgrounded.step (hdeed.links hx fun hk => hbegun (hdeed.opens hk).1), ?_⟩
      exact fun hidle => hbegun (hdeed.told.begun hidle)
    · rcases (hdeed.moves hx).untended huntended with hs | ⟨hbegun, new, hlog, hsetUp⟩
      · exact .inr hs
      · have hentries : Episode.entries ⟨p, k, s₁, a, s₂⟩ = new := Episode.entries_of_log hlog
        exact .inl ⟨.last (.inl (hentries ▸ hsetUp)), hbegun⟩

theorem Lives.entry {s t : Session (Log × ω)} (h : Lives s life t) (hs : s.log = []) {e : Entry}
    {log later : Log} (hlog : t.log = log ++ e :: later) :
    ∃ earlier d rest found more, life = earlier ++ d :: rest ∧ log = d.before.log ++ found ∧
      d.entries = found ++ e :: more := by
  induction h generalizing later with
  | refl => simp [hs] at hlog
  | @step p k x life s₁ a s₂ _ hdeed hx ih =>
    obtain ⟨new, hnew, -⟩ := hdeed.told.log
    have hentries : Episode.entries ⟨p, k, s₁, a, s₂⟩ = new := Episode.entries_of_log hnew
    rcases Log.append_eq_split (hnew.symm.trans hlog) with ⟨rest, hfirst⟩ | ⟨found, rfl, hsecond⟩
    · obtain ⟨earlier, d, rest, found, more, rfl, hfound⟩ := ih hfirst
      exact ⟨earlier, d, rest ++ [⟨p, k, s₁, a, s₂⟩], found, more, by simp, hfound⟩
    · exact ⟨life, _, [], found, later, rfl, rfl, hentries.trans hsecond⟩

/-- What a statement is run on in a task, after these episodes and after this much of its own. -/
inductive Footing (earlier : List (Episode ω)) (hooks : Nat) (found : Log) : Prop where
  /-- The task has connected again, and every hook has set the connection up. -/
  | fresh (hsetUp : Log.SetUp hooks found)
  /-- Every hook has set the connection up before the task, which has left it alone. -/
  | kept {before after : List (Episode ω)} {e : Episode ω}
      (hearlier : earlier = before ++ e :: after)
      (hsetUp : Log.SetUp e.parties.hooks.length e.entries)
      (hafter : ∀ d ∈ after, Log.Unlinked d.entries) (hfound : Log.Unlinked found)
  /-- An attempt to reconnect has failed before the task, and no other one was made. -/
  | shaky {before after : List (Episode ω)} {e : Episode ω}
      (hearlier : earlier = before ++ e :: after)
      (hbroken : Log.Broken e.entries) (hafter : ∀ d ∈ after, Log.Unlinked d.entries)
      (hfound : Log.Unlinked found)

end Life

namespace Shaky

open Rehearsal

/-- A hook that rejects the second connection. -/
def rejecting : Cast where
  hooks := [{ name := some "h", setups := [.fate .fine, .fate (.error (.custom "rejected"))] }]

def created : Session (Log × Scene) :=
  .create "s1" "Mock" {} { threaded := false } ([], rejecting.scene {} [])

def opened : Session (Log × Scene) := (perform rejecting.parties.logged .start created).2

def rejected : Session (Log × Scene) :=
  (perform rejecting.parties.logged (.reconnect none) opened).2

def queried : Session (Log × Scene) :=
  (perform rejecting.parties.logged (.execute (.ofText "SELECT 1")) rejected).2

/-- Which setups have succeeded, one after the other. -/
def setups (log : Log) : List Bool := log.filterMap fun
  | .returned (.onConnected _) x => some x.isOk
  | _ => none

theorem eq_select_of_matches {x : Option Entry}
    (h : x matches some (.called (.execute "SELECT 1" []))) :
    x = some (.called (.execute "SELECT 1" [])) := by
  split at h
  · rfl
  · cases h

end Shaky
end Session
end DatabaseSession
