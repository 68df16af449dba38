import DatabaseSession.Proofs.Release

namespace DatabaseSession

open Course Run

variable {ω α : Type}

/-- In a threaded session the call waits until the worker is through with it. -/
def Call.awaitsWorker : Call → Bool
  | .close | .reconnect _ => true
  | _ => false

namespace Session

variable {s s' : Session (Log × ω)} {hooks : Nat}

/-- A use of the session that calls on nobody unless tasks run in the caller. -/
structure Asks (s s' : Session (Log × ω)) : Prop where
  inUse : InUse s s'
  quiet : s.life ≠ .inCaller → Quiet s s'

namespace Asks

theorem ofQuiet (h : Quiet s s') : Asks s s' := ⟨h.mono fun _ hd => hd.elim, fun _ => h⟩

theorem refl (s : Session (Log × ω)) : Asks s s := ofQuiet (.refl s)

theorem trans {a b c : Session (Log × ω)} (h : Asks a b) (h' : Asks b c) : Asks a c where
  inUse := h.inUse.trans h'.inUse
  quiet hl := by
    refine (h.quiet hl).trans (h'.quiet ?_)
    rcases h.inUse.life with hb | ⟨-, hb, -⟩
    · rwa [hb]
    · simp [hb]

end Asks
end Session

/-- The course of calls for which the worker need not go on. -/
def Course.asks (ω : Type) : Course (Log × ω) := .ofGrowth Session.Asks .refl .trans

namespace Session

variable {s s' : Session (Log × ω)} {hooks : Nat}

theorem asks_inCaller {x : Except Stop α} (hl : s.life = .inCaller)
    (h : (inUse ω).Allows x s s') : (asks ω).Allows x s s' := by
  have hasks : InUse s s' → Asks s s' := fun huse => ⟨huse, fun hne => absurd hl hne⟩
  rcases x with (_ | _ | _) | _ <;> exact hasks h

theorem inUse_holding {m : Run (Log × ω) α} (hm : Follows (inUse ω) m) :
    Follows (inUse ω) (holding m) :=
  have hlock : ∀ locked, Follows (inUse ω) (modify fun s => { s with locked } :
      Run (Log × ω) Unit) := fun locked => follows_modify fun s => uses_relocked s locked
  follows_bind (hlock true) fun _ => follows_ensuring hm (hlock false) fun h => h

theorem holding_asks {m : Run (Log × ω) α} {x : Except Stop α} (hl : s.life = .inCaller)
    (hm : Follows (inUse ω) m) (hrun : holding m s = (x, s')) (hx : x ≠ .error .hang) :
    Asks s s' := by
  have h := asks_inCaller hl (inUse_holding hm s)
  rw [hrun] at h
  exact h.goes hx

theorem assign_asks (p : Parties ω) (t : Task) : Follows (asks ω) (assign p.logged t) := by
  intro s
  unfold assign
  rw [get_bind_apply]
  unfold refusal
  cases hl : s.life with
  | idle | closed => exact Asks.refl s
  | inCaller => exact asks_inCaller hl (inUse_holding (Task.inUse_perform p t) s)
  | threaded =>
    have hfiled := enqueue_filed s t
    rcases hr : s.enqueue t with ⟨_ | _, s₁⟩ <;> rw [hr] at hfiled <;>
      exact Asks.ofQuiet (.ofFiled hfiled)

theorem submit_asks (p : Parties ω) (t : Task) : Follows (asks ω) (submit p.logged t) :=
  follows_bind follows_get fun _ => follows_bind (assign_asks p _) fun _ =>
    follows_bind follows_get fun _ => follows_pure _

theorem execute_asks (p : Parties ω) (t : Task) : Follows (asks ω) (execute p.logged t) := by
  have hrevive : ∀ s : Session (Log × ω), Asks s { s with killed := false } := fun s =>
    .ofQuiet (.of_eq rfl rfl rfl (.of_eq rfl rfl))
  exact follows_bind (follows_modify hrevive) fun _ => submit_asks p t

theorem quiet_kill (p : Parties ω) (s : Session (Log × ω)) : Quiet s (s.kill p.logged) := by
  refine ⟨.of_eq rfl rfl, ?_, rfl, rfl⟩
  unfold kill
  cases s.published.interrupter with
  | none => exact ⟨[], by simp [log], by simp⟩
  | some handle => exact ⟨[.interrupted handle], rfl, by simp [Log.calls]⟩

theorem answered_asks (p : Parties ω) (c : Call) : Follows (asks ω) (answered p.logged c) := by
  intro s
  have hquiet : Quiet s (answer p.logged .caller c s).2 := by
    rcases answer_cases p.logged .caller c s with ⟨-, hf⟩ | ⟨t, -, hf⟩ | ⟨-, hk⟩ | ⟨name, -, ht⟩
    · exact .ofFiled hf
    · have hrevive : Quiet s { s with killed := false } := .of_eq rfl rfl rfl (.of_eq rfl rfl)
      exact hrevive.trans (.ofFiled hf)
    · rw [hk]
      exact quiet_kill p s
    · rw [ht]
      exact .of_eq rfl rfl rfl (.of_eq rfl rfl)
  unfold answered
  rcases ha : answer p.logged .caller c s with ⟨_ | a, s₁⟩ <;> rw [ha] at hquiet <;>
    exact Asks.ofQuiet hquiet

/-- What becomes of a session in one go: it is used, it is started, it is torn down by its owner, or
its worker deals with a request. -/
inductive Move (p : Parties ω) (s s' : Session (Log × ω)) : Prop where
  | used (h : Asks s s')
  | starts {x : Except Stop Unit} (hlife : s.life = .idle) (hrun : start p.logged s = (x, s'))
      (hx : x ≠ .error .hang)
  | closes {x : Except Stop Unit} {left : Session (Log × ω)}
      (hlife : left.life = .idle ∨ left.life = .inCaller) (hfiled : Filed s left)
      (hrun : closeHere p.logged { left with life := .closed } = (x, s')) (hx : x ≠ .error .hang)
  | works {x : Except Stop Bool} (hattended : s.mailbox.receiving = true)
      (hrun : Service.step p.logged s = (x, s')) (hx : x ≠ .error .hang)

theorem Move.ofFollows {p : Parties ω} {m : Run (Log × ω) α} {x : Except Stop α}
    (hm : Follows (asks ω) m) (hrun : m s = (x, s')) (hx : x ≠ .error .hang) : Move p s s' := by
  have h := hm s
  rw [hrun] at h
  exact .used (h.goes hx)

/-- How a session is closed: by its owner, or by the worker, or it has been closed before. -/
theorem close_cases (p : Parties ω) {s s' : Session ω} {x : Except Stop Unit}
    (hrun : close p s = (x, s')) (hx : x ≠ .error .hang) :
    (s.life = .idle ∨ s.life = .inCaller) ∧ closeHere p { s with life := .closed } = (x, s') ∨
      s.life = .threaded ∧ (∃ y, settle p s.requestClose = (y, s') ∧ y ≠ .error .hang) ∨
      s.life = .closed ∧ s.terminated.isSet = true ∧ s' = { s with life := .closed } := by
  unfold close at hrun
  rw [get_bind_apply, bind_apply, set_apply] at hrun
  dsimp only at hrun
  cases hl : s.life with
  | idle => exact .inl ⟨.inl rfl, by rw [hl] at hrun; exact hrun⟩
  | inCaller => exact .inl ⟨.inr rfl, by rw [hl] at hrun; exact hrun⟩
  | threaded =>
    -- to close and then to tell the worker comes to the same as to ask it to stop
    have hsent : ({ s with life := .closed }.sendRequest .close).2 = s.requestClose := by
      unfold requestClose sendRequest
      cases s.mailbox.receiving <;> rfl
    refine .inr (.inl ⟨rfl, ?_⟩)
    rw [hl] at hrun
    dsimp only at hrun
    rw [bind_apply, modify_apply] at hrun
    dsimp only at hrun
    rw [hsent, bind_apply] at hrun
    rcases hset : settle p s.requestClose with ⟨stop | _, s₁⟩ <;> rw [hset] at hrun <;>
      dsimp only at hrun
    · cases hrun
      exact ⟨_, rfl, by simpa using hx⟩
    · rw [get_bind_apply] at hrun
      split at hrun
      · cases hrun
        exact absurd rfl hx
      · cases hrun
        exact ⟨_, rfl, by simp⟩
  | closed =>
    rw [hl] at hrun
    dsimp only at hrun
    split at hrun
    · cases hrun
      exact absurd rfl hx
    · next hset =>
      cases hrun
      exact .inr (.inr ⟨rfl, by simpa using hset, rfl⟩)

theorem dropHandle_cases (p : Parties ω) {s s' : Session ω} {x : Except Stop Unit}
    (hrun : dropHandle p s = (x, s')) :
    s.giveUpHandle.handles = 0 ∧ (s.giveUpHandle.life = .idle ∨ s.giveUpHandle.life = .inCaller) ∧
        closeHere p { s.giveUpHandle with life := .closed } = (x, s') ∨
      ¬ (s.giveUpHandle.handles = 0 ∧
        (s.giveUpHandle.life = .idle ∨ s.giveUpHandle.life = .inCaller)) ∧
        x = .ok () ∧ s' = s.giveUpHandle := by
  unfold dropHandle at hrun
  rw [get_bind_apply, bind_apply, set_apply] at hrun
  dsimp only at hrun
  split at hrun
  · next h => exact .inl ⟨h.1, h.2, hrun⟩
  · next h =>
    cases hrun
    exact .inr ⟨h, rfl, rfl⟩

end Session

namespace Session

variable {s s' : Session (Log × ω)} {hooks : Nat}

theorem reconnect_inCaller (p : Parties ω) (options : Option Options) {s : Session ω}
    (hlife : s.life = .inCaller) :
    reconnect p options s = holding (reconnectHere p options) s := by
  unfold reconnect
  rw [get_bind_apply, refusal, hlife]
  rfl

theorem inUse_reconnectHere (p : Parties ω) (options : Option Options) :
    Follows (inUse ω) (reconnectHere p.logged options) := by
  exact follows_bind (Service.inUse_adopted options) fun _ =>
    follows_bind (Link.inUse_reconnect p .user) fun _ => Link.inUse_publish p

/-- A reconnect is refused, or made in the caller, or the worker is asked for it and goes on. -/
theorem reconnect_cases (p : Parties ω) (options : Option Options) {s s' : Session ω}
    {x : Except Stop Unit} (hrun : reconnect p options s = (x, s')) (hx : x ≠ .error .hang) :
    s' = s ∨ s.life = .inCaller ∧ holding (reconnectHere p options) s = (x, s') ∨
      s.life = .threaded ∧
        ∃ y, settle p (s.requestReconnect options).2 = (y, s') ∧ y ≠ .error .hang := by
  cases hl : s.life with
  | idle | closed =>
    unfold reconnect at hrun
    rw [get_bind_apply, refusal, hl] at hrun
    cases hrun
    exact .inl rfl
  | inCaller =>
    rw [reconnect_inCaller p options hl] at hrun
    exact .inr (.inl ⟨rfl, hrun⟩)
  | threaded =>
    unfold reconnect at hrun
    rw [get_bind_apply, refusal, hl] at hrun
    dsimp only at hrun
    rcases hreq : s.requestReconnect options with ⟨a, left⟩
    rw [hreq] at hrun
    cases a with
    | ticket n =>
      refine .inr (.inr ⟨rfl, ?_⟩)
      change (settle p >>= fun _ => get >>= _) left = (x, s') at hrun
      rw [bind_apply] at hrun
      rcases hset : settle p left with ⟨stop | _, s₁⟩ <;> rw [hset] at hrun <;> dsimp only at hrun
      · cases hrun
        exact ⟨_, rfl, by simpa using hx⟩
      · have hstay : s' = s₁ := by
          rw [get_bind_apply] at hrun
          rcases hreply : s₁.reconnectReply? n with _ | _ | _ <;> rw [hreply] at hrun <;>
            cases hrun <;> rfl
        exact ⟨_, by rw [hstay], by simp⟩
    | _ =>
      -- the worker takes no more requests, so nothing has changed
      have hleft : left = s := by
        unfold requestReconnect sendRequest at hreq
        cases hrecv : s.mailbox.receiving <;> rw [hrecv] at hreq <;> cases hreq <;> rfl
      cases hrun
      exact .inl hleft

theorem reconnect_moves (p : Parties ω) (options : Option Options) {x : Except Stop Unit}
    (hlife : s.life ≠ .threaded) (hrun : reconnect p.logged options s = (x, s'))
    (hx : x ≠ .error .hang) : Move p s s' := by
  rcases reconnect_cases p.logged options hrun hx with rfl | ⟨hl, hrun⟩ | ⟨hl, -⟩
  · exact .used (.refl _)
  · exact .used (holding_asks hl (inUse_reconnectHere p options) hrun hx)
  · exact absurd hl hlife

theorem map_attempt_runs {m : Run ω α} {f : Except Error α → Answer} {s s' : Session ω}
    {x : Except Stop Answer} (hrun : (f <$> attempt m) s = (x, s')) (hx : x ≠ .error .hang) :
    ∃ y, m s = (y, s') ∧ y ≠ .error .hang ∧ ∀ a, y = .ok a → x = .ok (f (.ok a)) := by
  rw [map_eq_pure_bind, bind_apply, attempt] at hrun
  rcases hms : m s with ⟨(e | q | _) | a, s₁⟩ <;> rw [hms] at hrun <;> cases hrun
  · exact ⟨_, rfl, by simp, by simp⟩
  · exact ⟨_, rfl, by simp, by simp⟩
  · exact absurd rfl hx
  · exact ⟨_, rfl, by simp, by simp⟩

theorem close_moves (p : Parties ω) {x : Except Stop Unit} (hlife : s.life ≠ .threaded)
    (hrun : close p.logged s = (x, s')) (hx : x ≠ .error .hang) : Move p s s' := by
  rcases close_cases p.logged hrun hx with ⟨hl, hrun⟩ | ⟨hl, -⟩ | ⟨hl, -, rfl⟩
  · exact .closes hl (.refl s) hrun hx
  · exact absurd hl hlife
  · exact .used (.ofQuiet (.of_eq rfl rfl rfl (.of_eq rfl hl.symm)))

theorem dropHandle_moves (p : Parties ω) {x : Except Stop Unit}
    (hrun : dropHandle p.logged s = (x, s')) (hx : x ≠ .error .hang) : Move p s s' := by
  have hfiled := giveUpHandle_filed s
  rcases dropHandle_cases p.logged hrun with ⟨-, hl, hrun⟩ | ⟨-, -, rfl⟩
  · exact .closes hl hfiled hrun hx
  · exact .used (.ofQuiet (.ofFiled hfiled))

theorem start_moves (p : Parties ω) {x : Except Stop Unit} (hrun : start p.logged s = (x, s'))
    (hx : x ≠ .error .hang) : Move p s s' := by
  by_cases hl : s.life = .idle
  · exact .starts hl hrun hx
  · obtain ⟨e, he⟩ := start_refused p.logged hl
    rw [he] at hrun
    cases hrun
    exact .used (.refl s)

/-- Every call that does not wait for the worker is one of the moves. -/
theorem perform_moves (p : Parties ω) (c : Call) {x : Except Stop Answer}
    (hown : s.life = .threaded → c.awaitsWorker = false)
    (hrun : perform p.logged c s = (x, s')) (hx : x ≠ .error .hang) : Move p s s' := by
  cases c with
  | start =>
    obtain ⟨y, hrun, hy, -⟩ := map_attempt_runs hrun hx
    exact start_moves p hrun hy
  | close =>
    obtain ⟨y, hrun, hy, -⟩ := map_attempt_runs hrun hx
    exact close_moves p (fun hl => by cases hown hl) hrun hy
  | reconnect options =>
    obtain ⟨y, hrun, hy, -⟩ := map_attempt_runs hrun hx
    exact reconnect_moves p options (fun hl => by cases hown hl) hrun hy
  -- in the caller there is no queue, and the reconnect is made at once
  | queueReconnect options =>
    simp only [perform] at hrun
    rw [get_bind_apply] at hrun
    split at hrun
    · next hl =>
      obtain ⟨y, hrun, hy, -⟩ := map_attempt_runs hrun hx
      exact reconnect_moves p options (by simp [hl]) hrun hy
    · exact .ofFollows (answered_asks p _) hrun hx
  | execute t =>
    obtain ⟨y, hrun, hy, -⟩ := map_attempt_runs hrun hx
    exact .ofFollows (execute_asks p t) hrun hy
  | submit t =>
    obtain ⟨y, hrun, hy, -⟩ := map_attempt_runs hrun hx
    exact .ofFollows (submit_asks p t) hrun hy
  | assign t =>
    obtain ⟨y, hrun, hy, -⟩ := map_attempt_runs hrun hx
    exact .ofFollows (assign_asks p t) hrun hy
  | dropHandle =>
    simp only [perform] at hrun
    rw [bind_apply] at hrun
    rcases hdrop : dropHandle p.logged s with ⟨stop | _, s₁⟩ <;> rw [hdrop] at hrun <;> cases hrun
    · exact dropHandle_moves p hdrop (by simpa using hx)
    · exact dropHandle_moves p hdrop (by simp)
  | isOpen | waitTerminated | awaitReconnect | kill | isKilled | cancel | isCancelled | pending
  | status | info | defaultSchema | failures | cloneHandle =>
    simp only [perform] at hrun
    exact .ofFollows (answered_asks p _) hrun hx

theorem Retired.not_owned {s : Session ω} (h : Retired s) :
    ¬ (s.life = .idle ∨ s.life = .inCaller) := by
  rintro (hl | hl) <;> rcases h with hr | hr <;> simp [hl] at hr

theorem Alone.closed (h : Alone s) :
    Held { s with life := .closed } ∧ Retired { s with life := .closed } ∧
      Unattended { s with life := .closed } :=
  ⟨⟨h.released, h.log⟩, .inl rfl, h.unattended⟩

namespace Move

variable {p : Parties ω}

/-- A session that is held by its owner or by its worker stays so, or it is over. -/
theorem leads (h : Move p s s') : ∃ new, s'.log = s.log ++ new ∧ (Log.Orderly new →
    (Alone s → Alone s' ∨ Served s' ∨ Over p.hooks.length s') ∧
      (Served s → Served s' ∨ Over p.hooks.length s')) := by
  cases h with
  | used h =>
    obtain ⟨new, hlog, -⟩ := h.inUse.log
    exact ⟨new, hlog, fun _ => ⟨fun ha => .inl (ha.inUse h.inUse),
      fun hserved => .inl (hserved.inUse h.inUse)⟩⟩
  | starts hl hrun hx =>
    obtain ⟨new, hlog, hnew⟩ := start_triple p _ _ _ hrun hx
    refine ⟨new, hlog, fun ho => ⟨fun ha => ?_,
      fun hserved => absurd (.inl hl) hserved.retired.not_owned⟩⟩
    rcases hnew ho ⟨ha, hl⟩ with ⟨-, h | h⟩ | h
    · exact .inl h
    · exact .inr (.inl h)
    · exact .inr (.inr h)
  | closes hl hfiled hrun hx =>
    obtain ⟨new, hlog, hnew⟩ := closeHere_triple p _ _ _ hrun hx
    refine ⟨new, by simpa [log, hfiled.outside] using hlog,
      fun ho => ⟨fun ha => ?_, fun hserved => ?_⟩⟩
    · have ha' := ha.inUse (.ofFiled hfiled)
      exact .inr (.inr (hnew ho ha'.closed))
    · exact absurd hl (hserved.inUse (.ofFiled hfiled)).retired.not_owned
  | works hattended hrun hx =>
    obtain ⟨new, hlog, hnew⟩ := Service.step_triple p Service.served_enduring _ _ _ hrun hx
    refine ⟨new, hlog, fun ho => ⟨fun ha => ?_, fun hserved => ?_⟩⟩
    · have hunattended : s.mailbox.receiving = false := ha.unattended
      simp [hunattended] at hattended
    · rcases hnew ho hserved with ⟨-, hend⟩ | ⟨-, hend, -⟩
      · exact hend
      · exact .inl hend

theorem quiet (h : Move p s s') (hover : Over hooks s) : Quiet s s' := by
  cases h with
  | used h => exact h.quiet fun hl => hover.retired.not_owned (.inr hl)
  | starts hl => exact absurd (.inl hl) hover.retired.not_owned
  | closes hl hfiled => exact absurd hl (hover.quiet (.ofFiled hfiled)).retired.not_owned
  | works hattended =>
    have hunattended : s.mailbox.receiving = false := hover.unattended
    simp [hunattended] at hattended

end Move
end Session
end DatabaseSession
