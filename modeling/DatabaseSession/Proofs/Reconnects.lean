import DatabaseSession.Proofs.Attempts
import DatabaseSession.Proofs.Stops

namespace DatabaseSession

namespace Course

variable {ω : Type}

/-- The log grows by calls of this kind only. -/
def calling (ω : Type) (P : Duty → Prop) : Course (Log × ω) :=
  .ofGrowth (fun s s' => ∃ new, s'.log = s.log ++ new ∧ ∀ d ∈ Log.calls new, P d)
    (fun s => ⟨[], by simp, by simp⟩)
    (by
      rintro a b c ⟨new, hlog, hd⟩ ⟨new', hlog', hd'⟩
      refine ⟨new ++ new', by rw [hlog', hlog, List.append_assoc], ?_⟩
      intro d h
      rw [Log.calls_append] at h
      exact (List.mem_append.mp h).elim (hd d) (hd' d))

theorem calling_permits {P : Duty → Prop} (p : Parties ω) {d : Duty} (h : P d) :
    (calling ω P).Permits p d := by
  refine permits_of fun {x new s s'} ht => ?_
  have hcalls : ∀ d' ∈ Log.calls new, P d' := by
    rw [ht.calls]
    simpa using h
  exact allows_of_panics ⟨new, ht.log, hcalls⟩ ⟨new, ht.log, hcalls⟩

end Course

namespace Link

open Run

variable {ω α β : Type} {p : Parties ω}

theorem covers_calling (p : Parties ω) {P : Duty → Prop} (kind : Attempt → Bool)
    (h : ∀ d, d.isConnecting kind = true → P d) : Covers (Course.calling ω P) p kind where
  permits d hd := Course.calling_permits p (h d hd)
  counts s := ⟨[], by simp [Session.log], by simp⟩

/-- What may still be done once the connection stands. -/
def isSetup : Duty → Prop
  | .onConnected _ | .notice _ _ => True
  | _ => False

/-- The last connect in the log succeeded, and so did the setup by all hooks. -/
def Connected (hooks : Nat) (log : Log) : Prop :=
  ∃ before options after, log = before ++ .returned (.connect options) (.ok ()) :: after ∧
    (∀ d ∈ Log.calls after, isSetup d) ∧
    ∀ i < hooks, .returned (.onConnected i) (.ok ()) ∈ after

theorem Connected.after {hooks : Nat} {log : Log} (h : Connected hooks log) (earlier : Log) :
    Connected hooks (earlier ++ log) := by
  obtain ⟨before, options, after, rfl, hafter, hall⟩ := h
  exact ⟨earlier ++ before, options, after, by simp, hafter, hall⟩

theorem Connected.before {hooks : Nat} {log : Log} (h : Connected hooks log) {later : Log}
    (hlater : ∀ d ∈ Log.calls later, isSetup d) : Connected hooks (log ++ later) := by
  obtain ⟨before, options, after, rfl, hafter, hall⟩ := h
  refine ⟨before, options, after ++ later, by simp, ?_, ?_⟩
  · intro d hd
    rw [Log.calls_append] at hd
    exact (List.mem_append.mp hd).elim (hafter d) (hlater d)
  · intro i hi
    exact List.mem_append_left _ (hall i hi)

theorem onConnected_all (hooks : List (Hook ω)) (shift : Nat) (s s' : Session (Log × ω))
    (h : (hooks.mapIdx fun i => Hook.logged (i + shift)).forM
      (fun hook => party p.logged hook.onConnected) s = (.ok (), s')) :
    ∃ new, s'.log = s.log ++ new ∧ (∀ d ∈ Log.calls new, isSetup d) ∧
      ∀ i < hooks.length, .returned (.onConnected (i + shift)) (.ok ()) ∈ new := by
  induction hooks generalizing shift s with
  | nil =>
    cases h
    exact ⟨[], by simp, by simp, by simp⟩
  | cons hook hooks ih =>
    rw [List.mapIdx_cons, List.forM, bind_apply] at h
    obtain ⟨new, ht⟩ := party_logged p (.onConnected (0 + shift)) hook.onConnected s
    rcases hr : party p.logged (Hook.logged (0 + shift) hook).onConnected s with ⟨stop | _, s₁⟩
    · rw [hr] at h
      cases h
    · -- hooks are logged by their place in line, so the rest of the line starts one further on
      rw [hr] at h
      have hr' : party p.logged (hook.onConnected.logged (.onConnected (0 + shift))) s = _ := hr
      rw [hr'] at ht
      have hshift : ∀ i, i + 1 + shift = i + (shift + 1) := fun i => by omega
      simp only [hshift] at h
      obtain ⟨new', hlog, hcalls, hall⟩ := ih (shift + 1) s₁ h
      refine ⟨new ++ new', by rw [hlog, ht.log, List.append_assoc], ?_, ?_⟩
      · intro d hd
        rw [Log.calls_append, ht.calls] at hd
        rcases List.mem_append.mp hd with hd | hd
        · rw [List.mem_singleton.mp hd]
          trivial
        · exact hcalls d hd
      · intro i hi
        cases i with
        | zero =>
          obtain ⟨asides, hside, rfl | ⟨hhang, _⟩⟩ := ht.entries
          · simp [Except.map]
          · cases hhang
        | succ i =>
          have hin := hall i (by simpa using hi)
          rw [← Nat.add_assoc, Nat.add_right_comm] at hin
          exact List.mem_append_right _ hin

/-- Whenever the computation has a value, the log has grown like that. -/
def Gains (P : Log → Prop) (m : Run (Log × ω) α) : Prop :=
  ∀ s a s', m s = (.ok a, s') → ∃ new, s'.log = s.log ++ new ∧ P new

theorem gains_bind {P : Log → Prop} (hP : ∀ {a b}, P b → P (a ++ b)) {m : Run (Log × ω) α}
    {f : α → Run (Log × ω) β} (hm : Follows (Course.calling ω fun _ => True) m)
    (hf : ∀ a, Gains P (f a)) : Gains P (m >>= f) := by
  intro s b s' h
  rw [bind_apply] at h
  have hgrow := hm s
  rcases hr : m s with ⟨stop | a, s₁⟩ <;> rw [hr] at h hgrow
  · cases h
  · obtain ⟨new, hlog, -⟩ := hgrow
    obtain ⟨new', hlog', hnew'⟩ := hf a s₁ b s' h
    exact ⟨new ++ new', by rw [hlog', hlog, List.append_assoc], hP hnew'⟩

theorem covers_growth (p : Parties ω) :
    Covers (Course.calling ω fun _ => True) p fun _ => true :=
  covers_calling p _ fun _ _ => trivial

theorem gains_establish (p : Parties ω) :
    Gains (Connected p.hooks.length) (establish p.logged) := by
  intro s a s' h
  unfold establish at h
  rw [get_bind_apply, bind_apply] at h
  obtain ⟨new, ht⟩ := party_logged p (.connect s.link.options) (p.backend.connect s.link.options) s
  rcases hr : party p.logged (p.logged.backend.connect s.link.options) s with ⟨stop | _, s₁⟩
  · rw [hr] at h
    cases h
  · rw [hr] at h
    have hr' : party p.logged
        ((p.backend.connect s.link.options).logged (.connect s.link.options)) s = _ := hr
    rw [hr'] at ht
    obtain ⟨new', hlog, hcalls, hall⟩ := onConnected_all p.hooks 0 s₁ s' h
    obtain ⟨asides, hside, rfl | ⟨hhang, _⟩⟩ := ht.entries
    · refine ⟨_, by rw [hlog, ht.log, List.append_assoc], ?_⟩
      exact ⟨.called (.connect s.link.options) :: asides, s.link.options, new',
        by simp [Except.map], hcalls, hall⟩
    · cases hhang

theorem gains_tryConnect (p : Parties ω) (attempt : Attempt) :
    Gains (Connected p.hooks.length) (tryConnect p.logged attempt) := by
  have hgrow := covers_growth p
  have hnotice : ∀ n, Follows (Course.calling ω fun _ => True) (announce p.logged n) := fun n =>
    follows_announce fun i => hgrow.permits (.notice i n) rfl
  refine gains_bind (fun h => h.after _)
    (follows_hooks fun i hook => follows_always (hgrow.permits (.onConnect i) rfl _)) fun _ =>
    gains_bind (fun h => h.after _) (hnotice _) fun _ => ?_
  intro s a s' h
  rw [bind_apply, Run.attempt] at h
  rcases hr : establish p.logged s with ⟨(e | _ | _) | _, s₁⟩ <;> rw [hr] at h
  · -- a failed attempt has no value
    have hnone : Leaves (fun _ => False) (do
        p.logged.hooks.forM fun hook => always (party p.logged (hook.onFailed e))
        announce p.logged (.failed attempt e)
        raise e : Run (Log × ω) Unit) := leaves_bind fun _ => leaves_bind fun _ => leaves_raise e
    exact (hnone s₁ a s' h).elim
  · cases h
  · cases h
  · obtain ⟨new, hlog, hnew⟩ := gains_establish p s () s₁ hr
    have hsetup : Follows (Course.calling ω isSetup) (announce p.logged (.connected attempt)) :=
      follows_announce fun i => Course.calling_permits p trivial
    have hlater := hsetup s₁
    change announce p.logged (.connected attempt) s₁ = _ at h
    rw [h] at hlater
    obtain ⟨new', hlog', hcalls⟩ := hlater
    exact ⟨new ++ new', by rw [hlog', hlog, List.append_assoc], hnew.before hcalls⟩

theorem gains_reconnectOnce (p : Parties ω) (cause : ReconnectCause) :
    Gains (Connected p.hooks.length) (reconnectOnce p.logged cause) := by
  refine gains_bind (fun h => h.after _)
    (follows_always ((covers_growth p).permits .disconnect rfl _)) fun _ => ?_
  intro s a s' h
  rw [bind_apply] at h
  rcases hr : tryConnect p.logged (.reconnect cause) s with ⟨stop | _, s₁⟩ <;> rw [hr] at h
  · cases h
  · cases h
    exact gains_tryConnect p (.reconnect cause) s () s₁ hr

theorem gains_reconnectUpTo (p : Parties ω) (cause : ReconnectCause) (more : Nat) :
    Gains (Connected p.hooks.length) (reconnectUpTo p.logged cause more) := by
  induction more with
  | zero => exact gains_reconnectOnce p cause
  | succ more ih =>
    intro s a s' h
    rw [reconnectUpTo, bind_apply, Run.attempt] at h
    have honce : Follows (Course.calling ω fun _ => True) (reconnectOnce p.logged cause) :=
      follows_reconnectOnce (covers_growth p) rfl
    have hgrow := honce s
    rcases hr : reconnectOnce p.logged cause s with ⟨(e | _ | _) | _, s₁⟩ <;> rw [hr] at h hgrow
    · obtain ⟨new, hlog, -⟩ := hgrow
      obtain ⟨new', hlog', hnew'⟩ := ih s₁ a s' h
      exact ⟨new ++ new', by rw [hlog', hlog, List.append_assoc], hnew'.after new⟩
    · cases h
    · cases h
    · cases h
      exact gains_reconnectOnce p cause s () _ hr

/-- A connection that is back was restored as the session allows it. -/
theorem restore_connected (p : Parties ω) (s s' : Session (Log × ω))
    (h : restore p.logged s = (.ok true, s')) :
    s.link.options.autoReconnect = true ∧
      ∃ new, s'.log = s.log ++ new ∧ Connected p.hooks.length new := by
  unfold restore at h
  rw [get_bind_apply] at h
  cases hauto : s.link.options.autoReconnect with
  | false =>
    rw [hauto] at h
    cases h
  | true =>
    refine ⟨rfl, ?_⟩
    have hgain : Gains (Connected p.hooks.length) (reconnect p.logged .automatic) :=
      gains_bind (fun h => h.after _) follows_ensureHeld fun _ =>
        gains_bind (fun h => h.after _) follows_get fun _ => gains_reconnectUpTo p _ _
    rw [hauto, if_pos rfl, bind_apply, Run.attempt] at h
    rcases hr : reconnect p.logged .automatic s with ⟨(e | _ | _) | _, s₁⟩ <;> rw [hr] at h <;>
      cases h
    exact hgain s () _ hr

/-- The log of automatic reconnects, successful or not, and what they leave. -/
structure Connects (new : Log) (s s' : Session (Log × ω)) : Prop where
  sends : Task.Sends new [] s s'
  duties : ∀ d ∈ Log.calls new, d.isConnecting Attempt.isAutomatic = true
  active : s'.active = s.active
  settings : s'.settings = s.settings
  options : s'.link.options = s.link.options
  killed : s.killed = false → Log.Calm new → s'.killed = false

theorem Connects.refl (s : Session (Log × ω)) : Connects [] s s :=
  ⟨.refl s, by simp, rfl, rfl, rfl, fun hk _ => hk⟩

theorem Connects.append {new new' : Log} {a b c : Session (Log × ω)} (h : Connects new a b)
    (h' : Connects new' b c) : Connects (new ++ new') a c where
  sends := h.sends.append h'.sends
  duties := by
    intro d hd
    rw [Log.calls_append] at hd
    exact (List.mem_append.mp hd).elim (h.duties d) (h'.duties d)
  active := h'.active.trans h.active
  settings := h'.settings.trans h.settings
  options := h'.options.trans h.options
  killed := fun hk hc => h'.killed (h.killed hk hc.left) hc.right

/-- The course of automatic reconnects: a panic in them is found in the log. -/
def connecting (ω : Type) : Course (Log × ω) where
  Goes s s' := ∃ new, Connects new s s'
  Panics s s' := ∃ new, Connects new s s' ∧ ¬Log.Calm new
  Sticks _ _ := True
  refl s := ⟨[], .refl s⟩
  trans := fun ⟨_, h⟩ ⟨_, h'⟩ => ⟨_, h.append h'⟩
  goes := fun ⟨new, h, _⟩ => ⟨new, h⟩
  panics := fun ⟨_, h⟩ ⟨_, h', hc⟩ => ⟨_, h.append h', fun hall => hc hall.right⟩
  panicked := fun ⟨_, h, hc⟩ ⟨_, h'⟩ => ⟨_, h.append h', fun hall => hc hall.left⟩
  sticks := fun _ _ => trivial

theorem connecting_covers (p : Parties ω) : Covers (connecting ω) p Attempt.isAutomatic where
  permits d hd := by
    refine Course.permits_of fun {x new s s'} ht => ?_
    have hdel : Log.deliveries [.called d] = [] := by
      cases d <;> simp_all [Duty.isConnecting, Log.deliveries]
    have hall : Connects new s s' :=
      ⟨.ofTurned ht hdel, by rw [ht.calls]; simpa using hd, ht.active, ht.settings,
        by rw [ht.link], fun hk hc => ht.unkilled hc hk⟩
    rcases x with (_ | q | _) | _
    · exact ⟨new, hall⟩
    · exact ⟨new, hall, ht.not_calm⟩
    · trivial
    · exact ⟨new, hall⟩
  counts s := ⟨[], .silent (by simp [Session.log]) rfl rfl rfl (by simp [Log.taken]), by simp, rfl,
    rfl, rfl, fun hk _ => hk⟩

/-- Where nobody panics, a restoration tells whether the connection is back, and it is back only
by an automatic reconnect that succeeded. -/
theorem restore_connects (p : Parties ω) {s s' : Session (Log × ω)} {x : Except Stop Bool}
    (h : restore p.logged s = (x, s')) (hx : x ≠ .error .hang) :
    ∃ gap, Connects gap s s' ∧ (Log.Calm gap → ∃ back, x = .ok back ∧
      (back = true → s.link.options.autoReconnect = true ∧ Connected p.hooks.length gap)) := by
  have hcourse := follows_restore (connecting_covers p) rfl s
  have hstop := stops_restore p.logged s
  rw [h] at hcourse hstop
  rcases x with (e | q | _) | back
  · exact absurd rfl (hstop _ rfl e)
  · obtain ⟨gap, hgap, hpanic⟩ := hcourse
    exact ⟨gap, hgap, fun hcalm => absurd hcalm hpanic⟩
  · exact absurd rfl hx
  · obtain ⟨gap, hgap⟩ := hcourse
    refine ⟨gap, hgap, fun _ => ⟨back, rfl, ?_⟩⟩
    rintro rfl
    obtain ⟨hauto, new, hlog, hback⟩ := restore_connected p s s' h
    have hsame : gap = new := List.append_cancel_left (hgap.sends.log.symm.trans hlog)
    exact ⟨hauto, hsame ▸ hback⟩

end Link
end DatabaseSession
