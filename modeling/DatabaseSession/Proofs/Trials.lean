import DatabaseSession.Proofs.Patience
import DatabaseSession.Rehearsal.Cast

namespace DatabaseSession

/-- How the duty is done decides whether an attempt to connect succeeds. -/
def Duty.isDecisive : Duty → Bool
  | .connect _ | .onConnected _ => true
  | _ => false

/-- Nobody who is called on stays away, and nobody panics but observers. -/
def Entry.isPolite : Entry → Bool
  | .returned _ (.error .hang) => false
  | .returned (.notice _ _) _ => true
  | .returned _ (.error (.panic _)) => false
  | _ => true

namespace Log

abbrev Polite (log : Log) : Prop := ∀ e ∈ log, e.isPolite = true

theorem Polite.left {a b : Log} (h : Polite (a ++ b)) : Polite a := fun e he =>
  h e (List.mem_append_left b he)

theorem Polite.right {a b : Log} (h : Polite (a ++ b)) : Polite b := fun e he =>
  h e (List.mem_append_right a he)

theorem Polite.not_unfinished {log : Log} (h : Polite log) (hc : Complete log) :
    ¬Unfinished log := by
  rintro (hlt | ⟨d, hd⟩)
  · exact absurd hc (Nat.ne_of_gt hlt)
  · simpa [Entry.isPolite] using h _ hd

/-- The answers that decide whether attempts to connect succeed. -/
def verdicts (log : Log) : List (Duty × Except Stop Unit) :=
  (returns log).filter fun r => r.1.isDecisive

@[simp] theorem verdicts_append (a b : Log) : verdicts (a ++ b) = verdicts a ++ verdicts b := by
  simp [verdicts]

end Log

namespace Session

variable {ω : Type} {d : Duty} {new : Log} {s s' : Session (Log × ω)}

theorem Turned.verdicts {x : Except Stop Unit} (h : Turned d x new s s')
    (hx : x ≠ .error .hang) : Log.verdicts new = if d.isDecisive then [(d, x)] else [] := by
  obtain ⟨asides, hside, rfl | ⟨rfl, _⟩⟩ := h.entries
  · cases hd : d.isDecisive <;> simp [Log.verdicts, Log.returns_asides hside, hd]
  · exact absurd rfl hx

theorem Turned.impolite {q : Panic} (h : Turned d (.error (.panic q)) new s s')
    (hd : ∀ i n, d ≠ .notice i n) : ¬Log.Polite new := by
  intro hp
  have hpolite := hp _ h.panicked
  cases d <;> simp_all [Entry.isPolite]

end Session

/-- Who is told how an attempt to connect came out. -/
def Attempt.report (kind : Attempt) (hooks observers : Nat) : Except Error Unit → List Duty
  | .ok _ => (List.range observers).map fun i => .notice i (.connected kind)
  | .error e =>
    (List.range hooks).map (fun i => .onFailed i e) ++
      (List.range observers).map fun i => .notice i (.failed kind e)

/-- How an attempt to connect comes out, where so many hooks set the connection up. -/
inductive Trial (hooks : Nat) where
  /-- There is no connection. -/
  | refused (e : Error)
  /-- There is one, and this hook is the first to fail in setting it up. -/
  | rejected (hook : Fin hooks) (e : Error)
  | made

namespace Trial

variable {hooks : Nat}

def outcome : Trial hooks → Except Error Unit
  | refused e | rejected _ e => .error e
  | made => .ok ()

def setup : Trial hooks → List Nat
  | refused _ => []
  | rejected hook _ => List.range (hook + 1)
  | made => List.range hooks

def verdicts (options : Options) : Trial hooks → List (Duty × Except Stop Unit)
  | refused e => [(.connect options, .error (.error e))]
  | rejected hook e =>
    (.connect options, .ok ()) :: ((List.range hook).map fun i => (.onConnected i, .ok ())) ++
      [(.onConnected hook, .error (.error e))]
  | made => (.connect options, .ok ()) :: (List.range hooks).map fun i => (.onConnected i, .ok ())

/-- All calls of the attempt, in their order. -/
def calls (observers : Nat) (options : Options) (kind : Attempt) (t : Trial hooks) : List Duty :=
  (List.range hooks).map .onConnect ++
    ((List.range observers).map (fun i => .notice i (.connecting kind)) ++
      (.connect options :: t.setup.map .onConnected ++ kind.report hooks observers t.outcome))

/-- Trials up to the first that succeeds or, if none does, up to the limit. -/
structure Series (limit : Nat) (earlier : List (Trial hooks)) (last : Trial hooks) : Prop where
  failed : ∀ t ∈ earlier, t ≠ made
  within : earlier.length < limit
  ended : last = made ∨ earlier.length + 1 = limit

theorem Series.cons {limit : Nat} {earlier : List (Trial hooks)} {last t : Trial hooks}
    (h : Series limit earlier last) (ht : t ≠ made) : Series (limit + 1) (t :: earlier) last where
  failed := List.forall_mem_cons.mpr ⟨ht, h.failed⟩
  within := Nat.succ_lt_succ h.within
  ended := h.ended.imp_right fun hl => by simp [hl]

end Trial

namespace Link

open Run Session

variable {ω α β : Type} {p : Parties ω} {c : Link}

/-- If all are polite, this is true of how the computation comes back, of the calls it makes, and
of the answers to them that decide an attempt to connect. -/
def Tries (c : Link) (m : Run (Log × ω) α)
    (R : Except Stop α → List Duty → List (Duty × Except Stop Unit) → Prop) : Prop :=
  ∀ s x s', s.link = c → m s = (x, s') → x ≠ .error .hang → s'.link = c ∧
    ∃ new, s'.log = s.log ++ new ∧ (Log.Polite new → R x (Log.calls new) (Log.verdicts new))

/-- If all are polite, exactly these are called on, and nothing is decided by it. -/
abbrev Tells (c : Link) (ds : List Duty) (m : Run (Log × ω) Unit) : Prop :=
  Tries c m fun x cs vs => x = .ok () ∧ cs = ds ∧ vs = []

/-- How a computation comes back, told from its attempt. -/
def unattempted : Except Stop (Except Error α) → Except Stop α
  | .ok r => r.mapError .error
  | .error stop => .error stop

theorem mapError_error_inj {r r' : Except Error α}
    (h : (r.mapError .error : Except Stop α) = r'.mapError .error) : r = r' := by
  cases r <;> cases r' <;> cases h <;> rfl

section Rules

variable {R : Except Stop α → List Duty → List (Duty × Except Stop Unit) → Prop}

theorem tries_mono {Q : Except Stop α → List Duty → List (Duty × Except Stop Unit) → Prop}
    {m : Run (Log × ω) α} (hm : Tries c m Q) (h : ∀ x cs vs, Q x cs vs → R x cs vs) :
    Tries c m R := by
  intro s x s' hc hr hx
  obtain ⟨hc', new, hlog, hnew⟩ := hm s x s' hc hr hx
  exact ⟨hc', new, hlog, fun hp => h x _ _ (hnew hp)⟩

theorem tries_bind {Q : Except Stop β → List Duty → List (Duty × Except Stop Unit) → Prop}
    {T : β → Except Stop α → List Duty → List (Duty × Except Stop Unit) → Prop}
    {m : Run (Log × ω) β} {f : β → Run (Log × ω) α} (hm : Tries c m Q)
    (hf : ∀ b, Tries c (f b) (T b))
    (hvalue : ∀ b cs vs x cs' vs', Q (.ok b) cs vs → T b x cs' vs' → R x (cs ++ cs') (vs ++ vs'))
    (hstop : ∀ stop cs vs, Q (.error stop) cs vs → R (.error stop) cs vs) :
    Tries c (m >>= f) R := by
  intro s x s' hc hr hx
  rw [bind_apply] at hr
  rcases hms : m s with ⟨stop | b, s₁⟩ <;> rw [hms] at hr
  · cases hr
    obtain ⟨hc₁, new, hlog, hnew⟩ := hm s _ _ hc hms (by simpa using hx)
    exact ⟨hc₁, new, hlog, fun hp => hstop stop _ _ (hnew hp)⟩
  · obtain ⟨hc₁, new, hlog, hnew⟩ := hm s _ _ hc hms (by simp)
    obtain ⟨hc₂, new', hlog', hnew'⟩ := hf b s₁ x s' hc₁ hr hx
    refine ⟨hc₂, new ++ new', by rw [hlog', hlog, List.append_assoc], fun hp => ?_⟩
    rw [Log.calls_append, Log.verdicts_append]
    exact hvalue b _ _ x _ _ (hnew hp.left) (hnew' hp.right)

theorem tells_bind {ds : List Duty} {m : Run (Log × ω) Unit} {m' : Run (Log × ω) α}
    (hm : Tells c ds m) (hm' : Tries c m' fun x cs vs => R x (ds ++ cs) vs) :
    Tries c (m >>= fun _ => m') R := by
  refine tries_bind hm (fun _ => hm') ?_ ?_
  · rintro _ cs vs x cs' vs' ⟨-, rfl, rfl⟩ h
    exact h
  · rintro stop cs vs ⟨h, -⟩
    cases h

theorem tries_get {f : Session (Log × ω) → Run (Log × ω) α}
    (h : ∀ s : Session (Log × ω), s.link = c → Tries c (f s) R) : Tries c (get >>= f) R :=
  fun s x s' hc hr hx => h s hc s x s' hc hr hx

theorem tries_pure {a : α} (h : R (.ok a) [] []) : Tries c (pure a : Run (Log × ω) α) R := by
  intro s x s' hc hr _
  cases hr
  exact ⟨hc, [], by simp, fun _ => h⟩

theorem tries_raise {e : Error} (h : R (.error (.error e)) [] []) :
    Tries c (raise e : Run (Log × ω) α) R := by
  intro s x s' hc hr _
  cases hr
  exact ⟨hc, [], by simp, fun _ => h⟩

theorem tries_attempt {m : Run (Log × ω) α} (hm : Tries c m R) :
    Tries c (attempt m) fun x cs vs => R (unattempted x) cs vs ∧ ∀ e, x ≠ .error (.error e) := by
  intro s x s' hc hr hx
  unfold attempt at hr
  rcases hms : m s with ⟨(e | q | _) | a, s₁⟩ <;> rw [hms] at hr <;> cases hr
  case error.hang => exact absurd rfl hx
  all_goals
    obtain ⟨hc', new, hlog, hnew⟩ := hm s _ _ hc hms (by simp)
    exact ⟨hc', new, hlog, fun hp => ⟨hnew hp, by simp⟩⟩

end Rules

section Turns

variable (p) {d : Duty}

theorem tries_party (m : Play ω α) (hd : ∀ i n, d ≠ .notice i n) :
    Tries c (party p.logged (m.logged d)) fun x cs vs =>
      ((∃ a, x = .ok a) ∨ ∃ e, x = .error (.error e)) ∧ cs = [d] ∧
        vs = if d.isDecisive then [(d, x.map fun _ => ())] else [] := by
  intro s x s' hc hr hx
  obtain ⟨new, ht⟩ := party_logged p d m s
  rw [hr] at ht
  refine ⟨ht.link.trans hc, new, ht.log, fun hp => ?_⟩
  rcases x with (e | q | _) | a
  · exact ⟨.inr ⟨e, rfl⟩, ht.calls, ht.verdicts (by simp [Except.map])⟩
  · exact absurd hp (ht.impolite hd)
  · exact absurd rfl hx
  · exact ⟨.inl ⟨a, rfl⟩, ht.calls, ht.verdicts (by simp [Except.map])⟩

theorem tells_always (m : Play ω Unit) (hd : ∀ i n, d ≠ .notice i n)
    (hfree : d.isDecisive = false) : Tells c [d] (always (party p.logged (m.logged d))) := by
  intro s x s' hc hr hx
  obtain ⟨new, ht⟩ := party_logged p d m s
  rw [always, valueOr_apply] at hr
  rcases hms : party p.logged (m.logged d) s with ⟨(e | q | _) | _, s₁⟩ <;> rw [hms] at hr ht <;>
    cases hr
  · exact ⟨ht.link.trans hc, new, ht.log, fun _ =>
      ⟨rfl, ht.calls, by simp [ht.verdicts (by simp [Except.map]), hfree]⟩⟩
  · exact ⟨ht.link.trans hc, new, ht.log, fun hp => absurd hp (ht.impolite hd)⟩
  · exact absurd rfl hx
  · exact ⟨ht.link.trans hc, new, ht.log, fun _ =>
      ⟨rfl, ht.calls, by simp [ht.verdicts (by simp [Except.map]), hfree]⟩⟩

theorem tells_shielded (m : Play ω Unit) (hfree : d.isDecisive = false) :
    Tells c [d] (shielded (party p.logged (m.logged d))) := by
  intro s x s' hc hr hx
  obtain ⟨new, ht⟩ := party_logged p d m s
  rw [shielded_apply] at hr
  rcases hms : party p.logged (m.logged d) s with ⟨(e | q | _) | _, s₁⟩ <;> rw [hms] at hr ht <;>
    cases hr
  case error.hang => exact absurd rfl hx
  all_goals exact ⟨ht.link.trans hc, new, ht.log, fun _ =>
    ⟨rfl, ht.calls, by simp [ht.verdicts (by simp [Except.map]), hfree]⟩⟩

end Turns

theorem tells_line {γ δ : Type} (line : List γ) (g : Nat → γ → δ) (f : δ → Run (Log × ω) Unit)
    (d : Nat → Duty) (h : ∀ i a, Tells c [d i] (f (g i a))) :
    Tells c ((List.range line.length).map d) ((line.mapIdx g).forM f) := by
  induction line generalizing g d with
  | nil => exact tries_pure ⟨rfl, rfl, rfl⟩
  | cons a line ih =>
    rw [List.mapIdx_cons, List.length_cons, List.range_succ_eq_map, List.map_cons, List.map_map]
    refine tells_bind (h 0 a) (tries_mono (ih (fun i => g (i + 1)) (d ∘ Nat.succ) fun i =>
      h (i + 1)) ?_)
    rintro x cs vs ⟨rfl, rfl, rfl⟩
    exact ⟨rfl, rfl, rfl⟩

theorem tells_announce (p : Parties ω) (n : ConnectionNotice) :
    Tells c ((List.range p.connectionObservers.length).map fun i => .notice i n)
      (announce p.logged n) :=
  tells_line p.connectionObservers _ _ _ fun _ _ => tells_shielded p _ rfl

/-- The hooks set up the connection in their order, up to the first that fails. -/
theorem tries_setup (hooks : List (Hook ω)) (g : Nat → Hook ω → Hook (Log × ω)) (d : Nat → Duty)
    (hd : ∀ i, (d i).isDecisive = true)
    (hg : ∀ i hook, (g i hook).onConnected = hook.onConnected.logged (d i)) :
    Tries c ((hooks.mapIdx g).forM fun hook => party p.logged hook.onConnected) fun x cs vs =>
      x = .ok () ∧ cs = (List.range hooks.length).map d ∧
          vs = (List.range hooks.length).map (fun i => (d i, .ok ())) ∨
        ∃ i < hooks.length, ∃ e, x = .error (.error e) ∧ cs = (List.range (i + 1)).map d ∧
          vs = (List.range i).map (fun i => (d i, .ok ())) ++ [(d i, .error (.error e))] := by
  induction hooks generalizing g d with
  | nil => exact tries_pure (.inl ⟨rfl, rfl, rfl⟩)
  | cons hook hooks ih =>
    have hfirst : ∀ i n, d 0 ≠ .notice i n := by
      intro i n h
      have := hd 0
      simp [h, Duty.isDecisive] at this
    have hrest := ih (fun i => g (i + 1)) (fun i => d (i + 1)) (fun i => hd (i + 1))
      fun i => hg (i + 1)
    rw [List.mapIdx_cons, List.forM, hg]
    refine tries_bind (tries_party p hook.onConnected hfirst) (fun _ => hrest) ?_ ?_
    · rintro _ cs vs x cs' vs' ⟨-, rfl, rfl⟩ (⟨rfl, rfl, rfl⟩ | ⟨i, hi, e, rfl, rfl, rfl⟩)
      · left
        simp [List.range_succ_eq_map, hd, Except.map, Function.comp_def]
      · refine .inr ⟨i + 1, Nat.succ_lt_succ hi, e, rfl, ?_, ?_⟩
        · simp [List.range_succ_eq_map (n := i + 1), Function.comp_def]
        · simp [List.range_succ_eq_map (n := i), hd, Except.map, Function.comp_def]
    · rintro stop cs vs ⟨⟨_, h⟩ | ⟨e, h⟩, rfl, rfl⟩
      · cases h
      · cases h
        exact .inr ⟨0, by simp, e, rfl, rfl, by simp [hd, Except.map]⟩

theorem tries_establish (p : Parties ω) :
    Tries c (establish p.logged) fun x cs vs => ∃ t : Trial p.hooks.length,
      x = t.outcome.mapError .error ∧ cs = .connect c.options :: t.setup.map .onConnected ∧
        vs = t.verdicts c.options := by
  refine tries_get fun s hs => ?_
  rw [hs]
  have hconnect :=
    tries_party (c := c) (d := .connect c.options) p (p.backend.connect c.options) (by simp)
  refine tries_bind hconnect
    (fun _ => tries_setup (p := p) p.hooks Hook.logged .onConnected (fun _ => rfl) fun _ _ => rfl)
    ?_ ?_
  · rintro _ cs vs x cs' vs' ⟨-, rfl, rfl⟩ (⟨rfl, rfl, rfl⟩ | ⟨i, hi, e, rfl, rfl, rfl⟩)
    · exact ⟨.made, rfl, rfl, rfl⟩
    · exact ⟨.rejected ⟨i, hi⟩ e, rfl, rfl, rfl⟩
  · rintro stop cs vs ⟨⟨_, h⟩ | ⟨e, h⟩, rfl, rfl⟩
    · cases h
    · cases h
      exact ⟨.refused e, rfl, rfl, rfl⟩

theorem tries_tryConnect (p : Parties ω) (kind : Attempt) :
    Tries c (tryConnect p.logged kind) fun x cs vs => ∃ t : Trial p.hooks.length,
      x = t.outcome.mapError .error ∧ cs = t.calls p.connectionObservers.length c.options kind ∧
        vs = t.verdicts c.options := by
  have hconnect : Tells c ((List.range p.hooks.length).map .onConnect)
      (p.logged.hooks.forM fun hook => always (party p.logged hook.onConnect)) :=
    tells_line p.hooks _ _ _ fun _ _ => tells_always p _ (by simp) rfl
  have hfailed : ∀ e, Tells c ((List.range p.hooks.length).map fun i => .onFailed i e)
      (p.logged.hooks.forM fun hook => always (party p.logged (hook.onFailed e))) := fun e =>
    tells_line p.hooks _ _ _ fun _ _ => tells_always p _ (by simp) rfl
  refine tells_bind hconnect (tells_bind (tells_announce p _)
    (tries_bind (tries_attempt (tries_establish p)) (T := fun r x cs vs => x = r.mapError .error ∧
      cs = kind.report p.hooks.length p.connectionObservers.length r ∧ vs = [])
      (fun r => ?_) ?_ ?_))
  · cases r with
    | ok _ => exact tells_announce p _
    | error e =>
      exact tells_bind (hfailed e) (tells_bind (tells_announce p _)
        (tries_raise ⟨rfl, by simp [Attempt.report], rfl⟩))
  · rintro r cs vs x cs' vs' ⟨⟨t, hr, rfl, rfl⟩, -⟩ ⟨rfl, rfl, rfl⟩
    have hsame : r = t.outcome := mapError_error_inj hr
    subst hsame
    exact ⟨t, rfl, by simp [Trial.calls], by simp⟩
  · rintro stop cs vs ⟨⟨t, hr, -⟩, hno⟩
    cases t <;> cases hr <;> exact absurd rfl (hno _)

/-- The account of a reconnect: its attempts one after the other, as they came out, the result and
what was counted. -/
structure Tried (p : Parties ω) (cause : ReconnectCause) (limit : Nat)
    (earlier : List (Trial p.hooks.length)) (last : Trial p.hooks.length) (x : Except Stop Unit)
    (new : Log) (s s' : Session (Log × ω)) : Prop extends Trial.Series limit earlier last where
  calls : Log.calls new = (earlier ++ [last]).flatMap fun t =>
    .disconnect :: t.calls p.connectionObservers.length s.link.options (.reconnect cause)
  verdicts : Log.verdicts new = (earlier ++ [last]).flatMap fun t => t.verdicts s.link.options
  result : x = last.outcome.mapError .error
  reconnects : s'.link.reconnects = s.link.reconnects + (if x.isOk then 1 else 0)

/-- An attempt that failed comes before all others, and counts for nothing. -/
theorem Tried.cons {cause : ReconnectCause} {limit : Nat} {earlier : List (Trial p.hooks.length)}
    {t last : Trial p.hooks.length} {e : Error} {x : Except Stop Unit} {new new' : Log}
    {s s₁ s' : Session (Log × ω)} (h : Tried p cause 1 [] t (.error (.error e)) new s s₁)
    (h' : Tried p cause limit earlier last x new' s₁ s')
    (hsame : s₁.link.options = s.link.options) :
    Tried p cause (limit + 1) (t :: earlier) last x (new ++ new') s s' where
  toSeries := by
    refine h'.toSeries.cons ?_
    rintro rfl
    cases h.result
  calls := by simp [h.calls, h'.calls, hsame]
  verdicts := by simp [h.verdicts, h'.verdicts, hsame]
  result := h'.result
  reconnects := by
    rw [h'.reconnects, h.reconnects]
    rfl

/-- An attempt that succeeds is the last, however many more there could be. -/
theorem Tried.only {cause : ReconnectCause} {t : Trial p.hooks.length} {new : Log}
    {s s' : Session (Log × ω)} (h : Tried p cause 1 [] t (.ok ()) new s s') (more : Nat) :
    Tried p cause (more + 1) [] t (.ok ()) new s s' := by
  refine { h with within := by simp, ended := .inl ?_ }
  cases t <;> cases h.result
  rfl

theorem reconnectOnce_tried (p : Parties ω) (cause : ReconnectCause) {s s' : Session (Log × ω)}
    {x : Except Stop Unit} (hr : reconnectOnce p.logged cause s = (x, s'))
    (hx : x ≠ .error .hang) :
    s'.link.options = s.link.options ∧ ∃ new, s'.log = s.log ++ new ∧
      (Log.Polite new → ∃ t, Tried p cause 1 [] t x new s s') := by
  have htry : Tries s.link (do
      always (party p.logged p.logged.backend.disconnect)
      tryConnect p.logged (.reconnect cause)) fun x cs vs => ∃ t : Trial p.hooks.length,
        x = t.outcome.mapError .error ∧
        cs = .disconnect ::
          t.calls p.connectionObservers.length s.link.options (.reconnect cause) ∧
        vs = t.verdicts s.link.options := by
    refine tells_bind (tells_always (d := .disconnect) p p.backend.disconnect (by simp) rfl)
      (tries_mono (tries_tryConnect p _) ?_)
    rintro x cs vs ⟨t, rfl, rfl, rfl⟩
    exact ⟨t, rfl, rfl, rfl⟩
  unfold reconnectOnce at hr
  rw [← bind_assoc, bind_apply] at hr
  rcases hms : (do
      always (party p.logged p.logged.backend.disconnect)
      tryConnect p.logged (.reconnect cause) : Run (Log × ω) Unit) s with ⟨stop | _, s₁⟩ <;>
    rw [hms] at hr <;> cases hr
  · obtain ⟨hlink, new, hlog, hnew⟩ := htry s _ _ rfl hms hx
    refine ⟨by rw [hlink], new, hlog, fun hp => ?_⟩
    obtain ⟨t, hresult, hcalls, hverdicts⟩ := hnew hp
    exact ⟨t, ⟨by simp, by simp, by simp⟩, by simpa using hcalls, by simpa using hverdicts,
      hresult, by simp [hlink, Except.isOk, Except.toBool]⟩
  · obtain ⟨hlink, new, hlog, hnew⟩ := htry s _ _ rfl hms (by simp)
    refine ⟨by simp [hlink], new, hlog, fun hp => ?_⟩
    obtain ⟨t, hresult, hcalls, hverdicts⟩ := hnew hp
    exact ⟨t, ⟨by simp, by simp, by simp⟩, by simpa using hcalls, by simpa using hverdicts,
      hresult, by simp [hlink, Except.isOk, Except.toBool]⟩

theorem reconnectUpTo_tried (p : Parties ω) (cause : ReconnectCause) (more : Nat)
    {s s' : Session (Log × ω)} {x : Except Stop Unit}
    (hr : reconnectUpTo p.logged cause more s = (x, s')) (hx : x ≠ .error .hang) :
    ∃ new, s'.log = s.log ++ new ∧
      (Log.Polite new → ∃ earlier last, Tried p cause (more + 1) earlier last x new s s') := by
  induction more generalizing s with
  | zero =>
    obtain ⟨-, new, hlog, hnew⟩ := reconnectOnce_tried p cause hr hx
    exact ⟨new, hlog, fun hp => ⟨[], hnew hp⟩⟩
  | succ more ih =>
    rw [reconnectUpTo, bind_apply, Run.attempt] at hr
    rcases hms : reconnectOnce p.logged cause s with ⟨(e | q | _) | _, s₁⟩ <;> rw [hms] at hr
    · -- a failed attempt leaves the others one less
      obtain ⟨hsame, new, hlog, hnew⟩ := reconnectOnce_tried p cause hms (by simp)
      obtain ⟨new', hlog', hnew'⟩ := ih hr
      refine ⟨new ++ new', by rw [hlog', hlog, List.append_assoc], fun hp => ?_⟩
      obtain ⟨t, ht⟩ := hnew hp.left
      obtain ⟨earlier, last, htried⟩ := hnew' hp.right
      exact ⟨t :: earlier, last, ht.cons htried hsame⟩
    · cases hr
      obtain ⟨-, new, hlog, hnew⟩ := reconnectOnce_tried p cause hms hx
      refine ⟨new, hlog, fun hp => ?_⟩
      obtain ⟨t, ht⟩ := hnew hp
      cases t <;> cases ht.result
    · cases hr
      exact absurd rfl hx
    · cases hr
      obtain ⟨-, new, hlog, hnew⟩ := reconnectOnce_tried p cause hms (by simp)
      refine ⟨new, hlog, fun hp => ?_⟩
      obtain ⟨t, ht⟩ := hnew hp
      exact ⟨[], t, ht.only _⟩

/-- A reconnect that never comes back is kept waiting by somebody. -/
theorem reconnect_unfinished (p : Parties ω) (cause : ReconnectCause) {s s' : Session (Log × ω)}
    (hr : reconnect p.logged cause s = (.error .hang, s')) :
    ∃ new, s'.log = s.log ++ new ∧ Log.Unfinished new := by
  have hcovers : ∀ rows sets, Covers (awaiting ω rows sets) p fun _ => true := fun rows sets =>
    ⟨fun d _ => awaiting_permits p rows sets d, fun _ => awaiting_same_log rfl⟩
  have hwait : ∀ rows sets, (awaiting ω rows sets).Allows (reconnect p.logged cause s).1 s
      (reconnect p.logged cause s).2 := fun rows sets => follows_reconnect (hcovers rows sets) rfl s
  rw [hr] at hwait
  obtain ⟨new, hlog, -⟩ := hwait 0 0
  -- no rows are read on the way, so it would wait for any number of them
  obtain ⟨new', hlog', hstuck⟩ := hwait (Log.rowsAwaited new + 1) (Log.setsAwaited new + 1)
  obtain rfl : new = new' := List.append_cancel_left (hlog.symm.trans hlog')
  refine ⟨new, hlog, ?_⟩
  rcases hstuck with h | h | h
  · exact h
  · omega
  · omega

/-- A reconnect makes attempts up to the first that succeeds, one if a user asks for it and as many
as are set otherwise, but at least one. In each the old connection is dropped, hooks and observers
are told, the connection is made and set up, and all are told how it came out. The last attempt is
the result. -/
theorem reconnect_tried (p : Parties ω) (cause : ReconnectCause) (s : Session (Log × ω))
    (hheld : s.link.released = false) :
    ∃ new, (reconnect p.logged cause s).2.log = s.log ++ new ∧
      (Log.Complete new → Log.Polite new → ∃ earlier last,
        Tried p cause (if cause = .user then 1 else max 1 s.settings.reconnectAttempts) earlier last
          (reconnect p.logged cause s).1 new s (reconnect p.logged cause s).2) := by
  rcases hr : reconnect p.logged cause s with ⟨x, s'⟩
  by_cases hx : x = .error .hang
  · subst hx
    obtain ⟨new, hlog, hnew⟩ := reconnect_unfinished p cause hr
    exact ⟨new, hlog, fun hc hp => absurd hnew (hp.not_unfinished hc)⟩
  · have hrun : reconnectUpTo p.logged cause (attempts s.settings cause - 1) s = (x, s') := by
      rw [← hr, reconnect, ensureHeld, bind_apply, get_bind_apply, hheld]
      rfl
    have hlimit : attempts s.settings cause - 1 + 1 =
        if cause = .user then 1 else max 1 s.settings.reconnectAttempts := by
      cases cause
      · rfl
      · simp only [attempts, reduceCtorEq, if_false]
        omega
    obtain ⟨new, hlog, hnew⟩ := reconnectUpTo_tried p cause _ hrun hx
    rw [hlimit] at hnew
    exact ⟨new, hlog, fun _ => hnew⟩

namespace Thrice

open Rehearsal

/-- The first connect fails, and the second hook at the second; an observer panics all along. -/
def cast : Cast where
  backend := { connects := [.error (.unconnected .driver)] }
  hooks := [{ name := some "first" },
    { name := some "second", setups := [.fate (.error (.custom "not yet"))] }]
  connectionObservers := [some {}, none]

def lost : Session (Log × Scene) :=
  .create "s1" "Mock" { autoReconnect := true } { reconnectAttempts := 5 } ([], cast.scene {} [])

def back : Session (Log × Scene) := (reconnect cast.parties.logged .automatic lost).2

theorem reconnect_tried_thrice :
    Log.Complete back.log ∧ Log.Polite back.log ∧
      (∃ earlier last, Tried cast.parties .automatic 5 earlier last
        (reconnect cast.parties.logged .automatic lost).1 back.log lost back) ∧
      (Log.verdicts back.log).length = 1 + 3 + 3 ∧ back.link.reconnects = 1 := by
  obtain ⟨new, hlog, hnew⟩ := reconnect_tried cast.parties .automatic lost rfl
  obtain rfl : back.log = new := hlog
  have hcomplete : Log.Complete back.log := by
    unfold Log.Complete
    decide +kernel
  have hpolite : Log.Polite back.log := by decide +kernel
  exact ⟨hcomplete, hpolite, hnew hcomplete hpolite, by decide +kernel, by decide +kernel⟩

end Thrice
end Link
end DatabaseSession
