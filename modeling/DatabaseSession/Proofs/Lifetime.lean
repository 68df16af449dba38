import DatabaseSession.Proofs.Moves
import DatabaseSession.Rehearsal.Cast

namespace DatabaseSession

open Course Run

variable {ω : Type}

/-- What something is done for in a session. -/
inductive Purpose where
  | opening
  /-- A reconnect that a caller asked for is made, with new options if there are some. -/
  | renewal (options : Option Options)
  | task (t : Task)
  | probe
  | other

/-- The purpose of what is left to the worker unless it is done in the caller. -/
def Purpose.inCaller (life : Life) (k : Purpose) : Purpose :=
  if life = .inCaller then k else .other

/-- What a call is made for, as far as that is done in the caller. -/
def Call.purpose (life : Life) : Call → Purpose
  | .start => if life = .idle then .opening else .other
  | .reconnect options | .queueReconnect options => Purpose.inCaller life (.renewal options)
  | .execute t | .submit t => Purpose.inCaller life (.task t.keepingEvents)
  | .assign t => Purpose.inCaller life (.task t)
  | _ => .other

def Request.purpose : Request → Purpose
  | .task t => .task t
  | .reconnect options _ => .renewal options
  | .probe => .probe
  | .close => .other

namespace Session

/-- The session has a worker if it is threaded. -/
def attended (threaded : Bool) (s : Session ω) : Session ω :=
  { s with mailbox := { s.mailbox with receiving := threaded || s.mailbox.receiving } }

/-- The state in which a caller sets about a purpose: the life cycle is held. -/
def held (s : Session ω) : Purpose → Session ω
  | .opening => attended s.settings.threaded { s with life := .closed, locked := true }
  | .other => s
  | _ => { s with locked := true }

/-- What the worker is to do next. -/
def due (s : Session ω) : Purpose :=
  match s.mailbox.queue with
  | [] => .other
  | request :: _ => request.purpose

/-- What happens to a session: what it is for, the state in which that is set about, and how it
ends. It is a call on the session, the request to close or to reconnect that a call leaves with the
worker before it waits, a request that the worker takes from its queue, a tick of the heartbeat, or
a change elsewhere. -/
inductive Deed (p : Parties ω) (s : Session (Log × ω)) :
    Purpose → Session (Log × ω) → Except Stop Unit → Session (Log × ω) → Prop where
  | call {c : Call} {x : Except Stop Answer} {s' : Session (Log × ω)}
      (hown : s.life = .threaded → c.awaitsWorker = false)
      (hrun : perform p.logged c s = (x, s')) :
      Deed p s (c.purpose s.life) (s.held (c.purpose s.life)) (x.map fun _ => ()) s'
  | closing (hlife : s.life = .threaded) : Deed p s .other s (.ok ()) s.requestClose
  | asking (options : Option Options) : Deed p s .other s (.ok ()) (s.requestReconnect options).2
  | work {x : Except Stop Bool} {s' : Session (Log × ω)} (hattended : s.mailbox.receiving = true)
      (hrun : Service.step p.logged s = (x, s')) :
      Deed p s s.due (Service.unqueued s s.mailbox.queue.tail) (x.map fun _ => ()) s'
  | tick : Deed p s .other s (.ok ()) (Service.tick s)
  | elsewhere (w : ω) : Deed p s .other s (.ok ()) { s with outside := (s.log, w) }

/-- A deed that came back, with the parties there were. -/
structure Episode (ω : Type) where
  parties : Parties ω
  purpose : Purpose
  before : Session (Log × ω)
  start : Session (Log × ω)
  after : Session (Log × ω)

def Episode.entries (e : Episode ω) : Log := e.after.log.drop e.before.log.length

/-- The life of a session from the one state to the other, deed by deed. Each has its own parties:
hooks and observers are added to a session at any time. -/
inductive Lives (s : Session (Log × ω)) : List (Episode ω) → Session (Log × ω) → Prop where
  | refl : Lives s [] s
  | step {p : Parties ω} {k : Purpose} {x : Except Stop Unit} {life : List (Episode ω)}
      {s₁ a s₂ : Session (Log × ω)} (h : Lives s life s₁) (hdeed : Deed p s₁ k a x s₂)
      (hx : x ≠ .error .hang) : Lives s (life ++ [⟨p, k, s₁, a, s₂⟩]) s₂

/-- A session is closed, or its start fails, or it loses its worker, or its last handle is given up
and the worker finishes. -/
inductive Ends (p : Parties ω) (s s' : Session (Log × ω)) : Prop where
  | closed {x : Except Stop Answer} (hrun : perform p.logged .close s = (x, s'))
      (hx : x ≠ .error .hang)
  | failed {x : Except Stop Answer} (hlife : s.life = .idle)
      (hrun : perform p.logged .start s = (x, s')) (hx : x ≠ .error .hang)
      (hfailed : x ≠ .ok (.result (.ok ())))
  | lost {k : Purpose} {a : Session (Log × ω)} {x : Except Stop Unit} (hdeed : Deed p s k a x s')
      (hx : x ≠ .error .hang) (hattended : s.mailbox.receiving = true)
      (hgone : s'.mailbox.receiving = false)
  | dropped {x : Except Stop Answer} (hlast : s.handles ≤ 1)
      (hrun : Session.call p.logged .dropHandle s = (x, s')) (hx : x ≠ .error .hang)

variable {p : Parties ω} {s s' t : Session (Log × ω)} {hooks : Nat}

theorem Episode.entries_of_log {e : Episode ω} {new : Log}
    (h : e.after.log = e.before.log ++ new) : e.entries = new := by
  simp [entries, h]

theorem quiet_tick (s : Session (Log × ω)) : Quiet s (Service.tick s) := by
  have hclaim : Quiet s (Service.claimProbe s).2 :=
    .of_eq rfl rfl rfl ⟨rfl, fun _ h => h, .inl rfl⟩
  have hsend : ∀ s : Session (Log × ω), Quiet s (Service.sendProbe s) := by
    intro s
    have hfiled := sendRequest_filed s .probe
    unfold Service.sendProbe
    rcases hr : s.sendRequest .probe with ⟨_ | _, s₁⟩ <;> rw [hr] at hfiled
    · have hstop : Quiet s₁ { s₁ with mailbox := { s₁.mailbox with probing := none } } :=
        .of_eq rfl rfl rfl ⟨rfl, fun _ h => h, .inl rfl⟩
      exact (Uses.ofFiled hfiled).trans hstop
    · exact .ofFiled hfiled
  unfold Service.tick
  split
  · split
    · next h =>
      rw [h] at hclaim
      exact hclaim.trans (hsend _)
    · next h =>
      rw [h] at hclaim
      exact hclaim
  · exact .refl s

theorem ne_hang_of_map {α : Type} {x : Except Stop α}
    (h : (x.map fun _ => ()) ≠ .error .hang) : x ≠ .error .hang := by
  rintro rfl
  exact h rfl

theorem map_ne_hang {α : Type} {x : Except Stop α} (h : x ≠ .error .hang) :
    (x.map fun _ => ()) ≠ .error .hang := by
  rcases x with stop | a
  · simpa [Except.map] using h
  · simp [Except.map]

theorem Deed.ofCall (c : Call) (s : Session (Log × ω))
    (hown : s.life = .threaded → c.awaitsWorker = false)
    (hok : (perform p.logged c s).1.isOk = true) :
    Deed p s (c.purpose s.life) (s.held (c.purpose s.life)) (.ok ()) (perform p.logged c s).2 := by
  rcases hrun : perform p.logged c s with ⟨_ | a, s'⟩ <;> rw [hrun] at hok
  · cases hok
  · exact .call hown hrun

theorem Deed.ofWork (s : Session (Log × ω)) (hattended : s.mailbox.receiving = true)
    (hok : (Service.step p.logged s).1.isOk = true) :
    Deed p s s.due (Service.unqueued s s.mailbox.queue.tail) (.ok ())
      (Service.step p.logged s).2 := by
  rcases hrun : Service.step p.logged s with ⟨_ | a, s'⟩ <;> rw [hrun] at hok
  · cases hok
  · exact .work hattended hrun

theorem Deed.moves {k : Purpose} {a : Session (Log × ω)} {x : Except Stop Unit}
    (h : Deed p s k a x s') (hx : x ≠ .error .hang) : Move p s s' := by
  cases h with
  | call hown hrun => exact perform_moves p _ hown hrun (ne_hang_of_map hx)
  | closing hlife => exact .used (.ofQuiet (.ofFiled (requestClose_filed s hlife)))
  | asking options => exact .used (.ofQuiet (.ofFiled (requestReconnect_filed s options)))
  | work hattended hrun => exact .works hattended hrun (ne_hang_of_map hx)
  | tick => exact .used (.ofQuiet (quiet_tick s))
  | elsewhere w => exact .used (.ofQuiet (.ofInterlude (.ofOutside s w)))

/-- A life with these parties all along. -/
def LivesWith (p : Parties ω) (s s' : Session (Log × ω)) : Prop :=
  ∃ life, Lives s life s' ∧ ∀ e ∈ life, e.parties = p

namespace Lives

variable {life life' : List (Episode ω)}

theorem single {k : Purpose} {a : Session (Log × ω)} {x : Except Stop Unit}
    (h : Deed p s k a x s') (hx : x ≠ .error .hang) : Lives s [⟨p, k, s, a, s'⟩] s' :=
  .step .refl h hx

theorem trans (h : Lives s life s') (h' : Lives s' life' t) : Lives s (life ++ life') t := by
  induction h' with
  | refl => simpa using h
  | step _ hdeed hx ih =>
    rw [← List.append_assoc]
    exact .step ih hdeed hx

/-- Every episode of a life is a deed that came back, between what went before and what followed. -/
theorem split {earlier later : List (Episode ω)} {e : Episode ω}
    (h : Lives s (earlier ++ e :: later) t) :
    Lives s earlier e.before ∧
      (∃ x, Deed e.parties e.before e.purpose e.start x e.after ∧ x ≠ .error .hang) ∧
      Lives e.after later t := by
  generalize hlife : earlier ++ e :: later = life at h
  induction h generalizing later with
  | refl => simp at hlife
  | @step p k x life t a u hlives hdeed hx ih =>
    rcases later.eq_nil_or_concat with rfl | ⟨before, last, rfl⟩
    · obtain ⟨rfl, rfl⟩ := List.append_singleton_inj.mp hlife
      exact ⟨hlives, ⟨x, hdeed, hx⟩, .refl⟩
    · rw [List.concat_eq_append, ← List.cons_append, ← List.append_assoc] at hlife
      obtain ⟨hrest, rfl⟩ := List.append_singleton_inj.mp hlife
      obtain ⟨hearlier, he, hlater⟩ := ih hrest
      rw [List.concat_eq_append]
      exact ⟨hearlier, he, .step hlater hdeed hx⟩

theorem log_append (h : Lives s life t) : ∃ new, t.log = s.log ++ new := by
  induction h with
  | refl => exact ⟨[], by simp⟩
  | step _ hdeed hx ih =>
    obtain ⟨new, hnew⟩ := ih
    obtain ⟨more, hmore, -⟩ := (hdeed.moves hx).leads
    exact ⟨new ++ more, by rw [hmore, hnew, List.append_assoc]⟩

theorem orderly (h : Lives s life t) (ht : Log.Orderly t.log) : Log.Orderly s.log := by
  obtain ⟨new, hnew⟩ := h.log_append
  rw [hnew] at ht
  exact ht.left

/-- A session that is over stays over, and nobody is called on any more. -/
theorem quiet (h : Lives s life t) (hover : Over hooks s) : Quiet s t := by
  induction h with
  | refl => exact .refl s
  | step _ hdeed hx ih => exact ih.trans ((hdeed.moves hx).quiet (hover.quiet ih))

end Lives

namespace LivesWith

theorem refl (s : Session (Log × ω)) : LivesWith p s s := ⟨[], .refl, by simp⟩

theorem single {k : Purpose} {a : Session (Log × ω)} {x : Except Stop Unit}
    (h : Deed p s k a x s') (hx : x ≠ .error .hang) : LivesWith p s s' := ⟨_, .single h hx, by simp⟩

theorem trans (h : LivesWith p s s') (h' : LivesWith p s' t) : LivesWith p s t := by
  obtain ⟨life, hlives, hall⟩ := h
  obtain ⟨life', hlives', hall'⟩ := h'
  refine ⟨life ++ life', hlives.trans hlives', fun e he => ?_⟩
  exact (List.mem_append.mp he).elim (hall e) (hall' e)

theorem of_settle {patience : Nat} {x : Except Stop Unit}
    (hrun : Service.settle p.logged patience s = (x, s')) (hx : x ≠ .error .hang) :
    LivesWith p s s' := by
  induction patience generalizing s with
  | zero =>
    cases hrun
    exact absurd rfl hx
  | succ patience ih =>
    rw [Service.settle, get_bind_apply] at hrun
    split at hrun
    · next hattended =>
      rw [bind_apply] at hrun
      rcases hstep : Service.step p.logged s with ⟨stop | b, s₁⟩ <;> rw [hstep] at hrun
      · cases hrun
        exact single (.work hattended hstep) (by simpa [Except.map] using hx)
      · have hfirst : LivesWith p s s₁ := single (.work hattended hstep) (by simp [Except.map])
        cases b with
        | true => exact hfirst.trans (ih hrun)
        | false =>
          cases hrun
          exact hfirst
    · cases hrun
      exact refl _

theorem of_perform {c : Call} {x : Except Stop Answer} (hrun : perform p.logged c s = (x, s'))
    (hx : x ≠ .error .hang) : LivesWith p s s' := by
  by_cases hown : s.life = .threaded → c.awaitsWorker = false
  · exact single (.call hown hrun) (map_ne_hang hx)
  · obtain ⟨hlife, hawaits⟩ := Classical.not_imp.mp hown
    have hretired := Retired.not_owned (.inr hlife)
    cases c with
    | close =>
      obtain ⟨y, hrun, hy, -⟩ := map_attempt_runs hrun hx
      rcases close_cases p.logged hrun hy with ⟨hl, -⟩ | ⟨-, z, hset, hz⟩ | ⟨hl, -⟩
      · exact absurd hl hretired
      · exact (single (.closing hlife) (by simp)).trans (of_settle hset hz)
      · simp [hlife] at hl
    | reconnect options =>
      obtain ⟨y, hrun, hy, -⟩ := map_attempt_runs hrun hx
      rcases reconnect_cases p.logged options hrun hy with rfl | ⟨hl, -⟩ | ⟨-, z, hset, hz⟩
      · exact refl _
      · exact absurd (.inr hl) hretired
      · exact (single (.asking options) (by simp)).trans (of_settle hset hz)
    | _ => exact absurd rfl hawaits

theorem ofCall (c : Call) (s : Session (Log × ω)) (hok : (perform p.logged c s).1.isOk = true) :
    LivesWith p s (perform p.logged c s).2 := by
  rcases hrun : perform p.logged c s with ⟨_ | a, s'⟩ <;> rw [hrun] at hok
  · cases hok
  · exact of_perform hrun (by simp)

theorem ofWork (s : Session (Log × ω)) (hattended : s.mailbox.receiving = true)
    (hok : (Service.step p.logged s).1.isOk = true) : LivesWith p s (Service.step p.logged s).2 :=
  single (.ofWork s hattended hok) (by simp)

end LivesWith

theorem create_alone (id name : String) (options : Options) (settings : Settings) (w : ω) :
    Alone (create id name options settings (([] : Log), w)) where
  released := rfl
  log := by simp [create, log, Log.Untouched]
  life := .inl rfl
  unattended := rfl
  unsignalled := rfl

theorem settle_told (p : Parties ω) :
    Triple (fun s => Closing s ∨ Over p.hooks.length s) (settle p.logged) fun _ s =>
      Over p.hooks.length s := by
  refine triple_mono (Service.settle_triple p Service.closing_enduring _) (fun _ hs => hs) ?_
  rintro x s ⟨-, ⟨hclosing, hempty⟩ | hover⟩
  · have htold := hclosing.told
    simp [hempty] at htold
  · exact hover

theorem close_over (p : Parties ω) :
    Triple (fun s => Alone s ∨ Served s) (close p.logged) fun _ s => Over p.hooks.length s := by
  intro s x s' hrun hx
  rcases close_cases p.logged hrun hx with ⟨hl, hrun⟩ | ⟨hl, y, hrun, hy⟩ | ⟨hl, hset, rfl⟩
  · obtain ⟨new, hlog, hnew⟩ := closeHere_triple p _ _ _ hrun hx
    refine ⟨new, hlog, fun ho hs => hnew ho ?_⟩
    exact (hs.resolve_right fun h => h.retired.not_owned hl).closed
  · have hfiled := requestClose_filed s hl
    obtain ⟨new, hlog, hnew⟩ := settle_told p _ _ _ hrun hy
    refine ⟨new, by simpa [log, hfiled.outside] using hlog, fun ho hs => hnew ho (.inl ?_)⟩
    have hserved := hs.resolve_left fun h => Retired.not_owned (.inr hl) h.life
    have hstill := hserved.inUse (.ofFiled hfiled)
    exact ⟨hstill, hstill.closing rfl⟩
  · -- a session that somebody still holds has not signalled its end
    refine ⟨[], by simp [log], fun _ hs => ?_⟩
    have hserved := hs.resolve_left fun h => Retired.not_owned (.inl hl) h.life
    simp [hserved.unsignalled] at hset

theorem giveUpHandle_last {s : Session ω} (h : s.handles ≤ 1) :
    s.giveUpHandle.handles = 0 ∧ s.giveUpHandle.life ≠ .threaded := by
  have hnone : s.handles - 1 = 0 := by omega
  unfold giveUpHandle
  dsimp only
  split
  · refine ⟨?_, by simp [requestClose]⟩
    unfold requestClose sendRequest
    split <;> exact hnone
  · next hl => exact ⟨hnone, fun h => hl ⟨hnone, h⟩⟩

theorem dropHandle_last (p : Parties ω) :
    Triple (fun s => (Alone s ∨ Served s) ∧ s.handles ≤ 1) (dropHandle p.logged) fun x s =>
      x = .ok () ∧ Closing s ∨ Over p.hooks.length s := by
  intro s x s' hrun hx
  have hfiled := giveUpHandle_filed s
  have hkept : ∀ hs : Alone s ∨ Served s, Alone s.giveUpHandle ∨ Served s.giveUpHandle := fun hs =>
    hs.imp (fun h => h.inUse (.ofFiled hfiled)) fun h => h.inUse (.ofFiled hfiled)
  rcases dropHandle_cases p.logged hrun with ⟨-, hl, hrun⟩ | ⟨hne, rfl, rfl⟩
  · obtain ⟨new, hlog, hnew⟩ := closeHere_triple p _ _ _ hrun hx
    refine ⟨new, by simpa [log, hfiled.outside] using hlog, fun ho hs => .inr (hnew ho ?_)⟩
    exact ((hkept hs.1).resolve_right fun h => h.retired.not_owned hl).closed
  · refine ⟨[], by simp [log, hfiled.outside], fun _ hs => .inl ⟨rfl, ?_⟩⟩
    obtain ⟨hnone, hstopped⟩ := giveUpHandle_last hs.2
    have hserved := (hkept hs.1).resolve_left fun h => hne ⟨hnone, h.life⟩
    exact ⟨hserved, hserved.closing (hserved.retired.resolve_right hstopped)⟩

theorem dropped_over (p : Parties ω) :
    Triple (fun s => (Alone s ∨ Served s) ∧ s.handles ≤ 1) (Session.call p.logged .dropHandle)
      fun _ s => Over p.hooks.length s := by
  refine triple_bind (M := fun x s => x = .ok .unit ∧ Closing s ∨ Over p.hooks.length s)
    (triple_bind (dropHandle_last p) (fun _ => ?_) ?_) (fun _ => ?_) ?_
  · apply triple_pure
    exact fun s hs => hs.imp_left fun h => ⟨rfl, h.2⟩
  · rintro stop s (⟨hstop, -⟩ | hover)
    · cases hstop
    · exact .inr hover
  · refine triple_bind (triple_mono (settle_told p) (fun s hs => hs.imp_left And.right)
      fun _ _ h => h) (fun _ => ?_) fun _ _ h => h
    exact triple_pure _ fun s hs => hs
  · rintro stop s (⟨hstop, -⟩ | hover)
    · cases hstop
    · exact hover

namespace Ends

theorem lives (h : Ends p s s') : LivesWith p s s' := by
  cases h with
  | closed hrun hx => exact .of_perform hrun hx
  | failed _ hrun hx _ => exact .of_perform hrun hx
  | lost hdeed hx => exact .single hdeed hx
  | dropped _ hrun hx =>
    -- the worker finishes on its own, one request after the other
    unfold Session.call at hrun
    rw [bind_apply] at hrun
    rcases hfirst : perform p.logged .dropHandle s with ⟨stop | a, s₁⟩ <;> rw [hfirst] at hrun
    · cases hrun
      exact .of_perform hfirst (by simpa using hx)
    · have hstart : LivesWith p s s₁ := .of_perform hfirst (by simp)
      dsimp only at hrun
      rw [bind_apply] at hrun
      rcases hset : settle p.logged s₁ with ⟨stop | _, s₂⟩ <;> rw [hset] at hrun <;> cases hrun
      · exact hstart.trans (.of_settle hset (by simpa using hx))
      · exact hstart.trans (.of_settle hset (by simp))

/-- However a session ends, it is over if it was not before. -/
theorem isOver (h : Ends p s s') : ∃ new, s'.log = s.log ++ new ∧
    (Log.Orderly new → Alone s ∨ Served s → Over p.hooks.length s') := by
  cases h with
  | closed hrun hx =>
    obtain ⟨y, hrun, hy, -⟩ := map_attempt_runs hrun hx
    exact close_over p _ _ _ hrun hy
  | failed hl hrun hx hfailed =>
    obtain ⟨y, hrun, hy, hok⟩ := map_attempt_runs hrun hx
    obtain ⟨new, hlog, hnew⟩ := start_triple p _ _ _ hrun hy
    refine ⟨new, hlog, fun ho hs => ?_⟩
    have halone := hs.resolve_right fun h => h.retired.not_owned (.inl hl)
    rcases hnew ho ⟨halone, hl⟩ with ⟨h, -⟩ | hover
    · exact absurd (hok () h) hfailed
    · exact hover
  | lost hdeed hx hattended hgone =>
    obtain ⟨new, hlog, hnew⟩ := (hdeed.moves hx).leads
    refine ⟨new, hlog, fun ho hs => ?_⟩
    have hserved := hs.resolve_left fun h => by
      have hunattended : s.mailbox.receiving = false := h.unattended
      simp [hunattended] at hattended
    refine ((hnew ho).2 hserved).resolve_left fun h => ?_
    have hattended' := h.attended
    simp [hgone] at hattended'
  | dropped hlast hrun hx =>
    obtain ⟨new, hlog, hnew⟩ := dropped_over p _ _ _ hrun hx
    exact ⟨new, hlog, fun ho hs => hnew ho ⟨hs, hlast⟩⟩

end Ends

theorem Over.not_held (h : Over hooks s) : ¬ (Alone s ∨ Served s) := by
  have hreleased := h.released
  rintro (hs | hs) <;> simp [hs.released] at hreleased

/-- The episode tears a session down that was held until then. -/
structure Episode.TearsDown (e : Episode ω) : Prop where
  held : Held e.before
  gone : Over e.parties.hooks.length e.after

/-- Until a session is over, its owner or its worker holds it. Then one deed tears it down. -/
theorem Lives.held_or_over {life : List (Episode ω)} (h : Lives s life t) (hs : Alone s ∨ Served s)
    (ho : Log.Orderly t.log) :
    (Alone t ∨ Served t) ∨ ∃ earlier e later,
      life = earlier ++ e :: later ∧ e.TearsDown ∧ Quiet e.after t := by
  induction h with
  | refl => exact .inl hs
  | @step p k x life t a u hlives hdeed hx ih =>
    obtain ⟨new, hlog, hnew⟩ := (hdeed.moves hx).leads
    rw [hlog] at ho
    rcases ih ho.left with (ht | ht) | ⟨earlier, e, later, rfl, hdown, hquiet⟩
    · rcases (hnew ho.right).1 ht with hu | hu | hover
      · exact .inl (.inl hu)
      · exact .inl (.inr hu)
      · exact .inr ⟨life, ⟨p, k, t, a, u⟩, [], rfl, ⟨ht.toHeld, hover⟩, .refl u⟩
    · rcases (hnew ho.right).2 ht with hu | hover
      · exact .inl (.inr hu)
      · exact .inr ⟨life, ⟨p, k, t, a, u⟩, [], rfl, ⟨ht.toHeld, hover⟩, .refl u⟩
    · refine .inr ⟨earlier, e, later ++ [⟨p, k, t, a, u⟩], by simp, hdown, ?_⟩
      exact hquiet.trans ((hdeed.moves hx).quiet (hdown.gone.quiet hquiet))

/-- Once a session has ended, one deed of its life has torn it down: until then nothing was, in it
every hook that was there was closed once and then the backend was released once, and since then
nobody has been called on. -/
theorem released_once_of_ends {id name : String} {options : Options} {settings : Settings} {w : ω}
    {before after : List (Episode ω)}
    (hlives : Lives (create id name options settings (([] : Log), w)) before s)
    (hends : Ends p s s') (hafter : Lives s' after t) (horderly : Log.Orderly t.log) :
    ∃ during, Lives s during s' ∧ (∀ e ∈ during, e.parties = p) ∧
      ∃ earlier e later, before ++ during ++ after = earlier ++ e :: later ∧
        Log.Untouched e.before.log ∧ Log.ReleasedOnce e.parties.hooks.length e.after.log ∧
        Log.calls t.log = Log.calls e.after.log := by
  have hcreated := create_alone id name options settings w
  obtain ⟨during, hduring, hparties⟩ := hends.lives
  refine ⟨during, hduring, hparties, ?_⟩
  have hall := (hlives.trans hduring).trans hafter
  rcases hall.held_or_over (.inl hcreated) horderly with
    ht | ⟨earlier, e, later, hlife, hdown, hquiet⟩
  · -- it is not held any more: it was over before its end, or with it
    have hended := hafter.orderly horderly
    have hover : ∃ hooks, Over hooks t := by
      rcases hlives.held_or_over (.inl hcreated) (hduring.orderly hended) with
        hs | ⟨-, e, -, -, hdown, hquiet⟩
      · obtain ⟨new, hlog, hnew⟩ := hends.isOver
        rw [hlog] at hended
        have hover := hnew hended.right hs
        exact ⟨_, hover.quiet (hafter.quiet hover)⟩
      · have hover := hdown.gone.quiet hquiet
        exact ⟨_, hover.quiet ((hduring.trans hafter).quiet hover)⟩
    obtain ⟨hooks, hover⟩ := hover
    exact absurd ht hover.not_held
  · exact ⟨earlier, e, later, hlife, hdown.held.log, hdown.gone.log, hquiet.calls⟩

section Brittle

open Rehearsal

/-- A backend with two hooks that panics when it is connected again. -/
def brittle : Cast where
  backend := { connects := [.fine, .panic {}] }
  hooks := [{ name := some "first" }, { name := some "second" }]

def created : Session (Log × Scene) := .create "s1" "Mock" {} {} ([], brittle.scene {} [])

def started : Session (Log × Scene) := (perform brittle.parties.logged .start created).2

/-- Its worker is asked for a reconnect, which it will not survive. -/
def doomed : Session (Log × Scene) :=
  (perform brittle.parties.logged (.queueReconnect none) started).2

def bereft : Session (Log × Scene) := (Service.step brittle.parties.logged doomed).2

def closedLate : Session (Log × Scene) := (perform brittle.parties.logged .close bereft).2

theorem released_once_of_ends_brittle :
    ∃ before after, Lives created before doomed ∧ Ends brittle.parties doomed bereft ∧
      Lives bereft after closedLate ∧
      ∃ during, Lives doomed during bereft ∧ (∀ e ∈ during, e.parties = brittle.parties) ∧
        ∃ earlier e later, before ++ during ++ after = earlier ++ e :: later ∧
          Log.Untouched e.before.log ∧ Log.ReleasedOnce e.parties.hooks.length e.after.log ∧
          Log.calls closedLate.log = Log.calls e.after.log := by
  have hstart := Deed.ofCall (p := brittle.parties) .start created (fun _ => rfl)
    (by decide +kernel)
  have hask := Deed.ofCall (p := brittle.parties) (.queueReconnect none) started (fun _ => rfl)
    (by decide +kernel)
  have hwork := Deed.ofWork (p := brittle.parties) doomed (by decide +kernel) (by decide +kernel)
  have hlives := (Lives.single hstart (by simp)).step hask (by simp)
  have hends : Ends brittle.parties doomed bereft :=
    .lost hwork (by simp) (by decide +kernel) (by decide +kernel)
  obtain ⟨after, hafter, -⟩ := LivesWith.ofCall (p := brittle.parties) .close bereft
    (by decide +kernel)
  exact ⟨_, _, hlives, hends, hafter,
    released_once_of_ends hlives hends hafter (by decide +kernel)⟩

end Brittle
end Session
end DatabaseSession
