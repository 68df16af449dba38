import DatabaseSession.Proofs.Moves
import DatabaseSession.Proofs.Stretches

namespace DatabaseSession

open Course Run Session

variable {ω α : Type} {c : Course (Log × ω)} {p : Parties ω} {s s' : Session (Log × ω)}

namespace Session

/-- A change of the session's own records: nobody is called on, nothing is learnt about the
connection, and the statistics and the settings of the connection for life stay. -/
structure Inner (s s' : Session (Log × ω)) : Prop where
  log : ∃ new, s'.log = s.log ++ new ∧ Log.calls new = []
  published : s'.published = s.published
  stats : s'.stats = s.stats
  statsHeld : s'.statsHeld = s.statsHeld
  autoReconnect : s'.link.options.autoReconnect = s.link.options.autoReconnect
  begun : s'.life = .idle → s.life = .idle

namespace Inner

theorem of_eq (h : (s'.outside, s'.published, s'.stats, s'.statsHeld,
      s'.link.options.autoReconnect, s'.life) = (s.outside, s.published, s.stats, s.statsHeld,
      s.link.options.autoReconnect, s.life)) : Inner s s' := by
  simp only [Prod.mk.injEq] at h
  obtain ⟨hout, hpublished, hstats, hheld, hauto, hlife⟩ := h
  exact ⟨⟨[], by simp [Session.log, hout], rfl⟩, hpublished, hstats, hheld, hauto,
    hlife.symm.trans⟩

theorem ofLife (s : Session (Log × ω)) {life : Life} (hlife : life ≠ .idle) :
    Inner s { s with life } :=
  ⟨⟨[], by simp [Session.log], rfl⟩, rfl, rfl, rfl, rfl, fun h => absurd h hlife⟩

theorem refl (s : Session (Log × ω)) : Inner s s := .of_eq rfl

theorem trans {a b c : Session (Log × ω)} (h : Inner a b) (h' : Inner b c) : Inner a c := by
  obtain ⟨new, hlog, hcalls⟩ := h.log
  obtain ⟨new', hlog', hcalls'⟩ := h'.log
  exact ⟨⟨new ++ new', by rw [hlog', hlog, List.append_assoc], by simp [hcalls, hcalls']⟩,
    h'.published.trans h.published, h'.stats.trans h.stats, h'.statsHeld.trans h.statsHeld,
    h'.autoReconnect.trans h.autoReconnect, h.begun ∘ h'.begun⟩

theorem apart (h : Inner s s') : Apart s s' := by
  obtain ⟨new, hlog, hcalls⟩ := h.log
  exact ⟨⟨h.published, new, hlog, by simp [hcalls]⟩, h.stats, h.statsHeld⟩

end Inner

theorem Meanwhile.begun (h : Meanwhile s s') (hidle : s'.life = .idle) : s.life = .idle := by
  rcases h.life with hl | ⟨-, hl, -⟩
  · exact hl.symm.trans hidle
  · simp [hl] at hidle

namespace Inner

theorem ofInterlude {asides : Log} (h : Interlude asides s s') : Inner s s' :=
  ⟨⟨asides, h.log, Log.calls_asides h.aside⟩, h.published, h.stats, h.statsHeld, by rw [h.link],
    h.toMeanwhile.begun⟩

theorem ofFiled (h : Filed s s') : Inner s s' := .ofInterlude (.ofFiled h)

theorem ofAnswer (thread : Thread) (call : Call) (s : Session (Log × ω)) :
    Inner s (answer p.logged thread call s).2 := by
  rcases answer_cases p.logged thread call s with ⟨-, hf⟩ | ⟨t, -, hf⟩ | ⟨-, hk⟩ | ⟨name, -, ht⟩
  · exact .ofFiled hf
  · have hrevive : Inner s { s with killed := false } := .of_eq rfl
    exact hrevive.trans (.ofFiled hf)
  · rw [hk]
    obtain ⟨new, hlog, hcalls⟩ := (quiet_kill p s).log
    refine ⟨⟨new, hlog, ?_⟩, rfl, rfl, rfl, rfl, fun h => h⟩
    exact List.eq_nil_iff_forall_not_mem.mpr fun d hd => (hcalls d hd).elim
  · rw [ht]
    exact .of_eq rfl

theorem ofTick (s : Session (Log × ω)) : Inner s (Service.tick s) := by
  have hsend : ∀ s : Session (Log × ω), Inner s (Service.sendProbe s) := by
    intro s
    have hfiled := sendRequest_filed s .probe
    unfold Service.sendProbe
    rcases hr : s.sendRequest .probe with ⟨_ | _, s₁⟩ <;> rw [hr] at hfiled
    · exact (Inner.ofFiled hfiled).trans (.of_eq rfl)
    · exact .ofFiled hfiled
  have hclaim : Inner s (Service.claimProbe s).2 := .of_eq rfl
  unfold Service.tick
  split
  · rcases hc : Service.claimProbe s with ⟨_ | _, s₁⟩ <;> rw [hc] at hclaim
    · exact hclaim
    · exact hclaim.trans (hsend s₁)
  · exact .refl s

end Inner

/-- The course covers what a session does by itself, and its end, with or without a worker. -/
structure Tends (c : Course (Log × ω)) (p : Parties ω) : Prop where
  inner : ∀ {s s'}, Inner s s' → c.Goes s s'
  teardown : ∀ d, d.isTeardown = true → c.Permits p d
  cancels : Follows c (Task.cancel p.logged)
  panics : ∀ s, c.Panics s s
  stuck : ∀ s, c.Sticks s s
  stops : ∀ {s s'}, c.Panics s s' → c.Sticks s s'

theorem Growth.tends {P : Duty → Prop} {G : Session (Log × ω) → Session (Log × ω) → Prop}
    (h : Growth p P G) (hinner : ∀ {s s'}, Inner s s' → G s s') (hemit : Emits p G)
    (hteardown : ∀ d, d.isTeardown = true → P d) (herrand : ∀ key, P (.cancelErrand key)) :
    Tends h.course p where
  inner := hinner
  teardown d hd := h.permits (hteardown d hd)
  cancels := Task.grows_cancel h hemit herrand
  panics := h.refl
  stuck := h.refl
  stops hs := hs

namespace Tends

variable (h : Tends c p)
include h

theorem allows_refl (x : Except Stop α) (s : Session (Log × ω)) : c.Allows x s s :=
  allows_of_panics (h.panics s) (h.stuck s)

theorem follows_inner {f : Session (Log × ω) → Session (Log × ω)} (hf : ∀ s, Inner s (f s)) :
    Follows c (modify f : Run (Log × ω) Unit) := follows_modify fun s => h.inner (hf s)

theorem follows_release : Follows c (Link.release p.logged) :=
  Link.follows_release (fun _ => h.inner (.of_eq rfl)) (fun _ _ _ => h.teardown _ rfl _)
    (h.teardown _ rfl _)

theorem follows_drop : Follows c (Link.drop p.logged) :=
  Link.follows_drop h.follows_release (h.teardown _ rfl _) h.stops

theorem follows_unlock :
    Follows c (modify fun s => { s with locked := false } : Run (Log × ω) Unit) :=
  h.follows_inner fun _ => .of_eq rfl

theorem follows_reply (ticket : Nat) (r : Option (Except Error Unit)) :
    Follows c (Service.reply ticket r) := h.follows_inner fun _ => .of_eq rfl

theorem follows_dropTask (t : Task) :
    Follows c (modify (Service.dropTask t) : Run (Log × ω) Unit) :=
  h.follows_inner fun s => .ofFiled (Service.dropTask_filed t s)

theorem goes_unqueued (s : Session (Log × ω)) (rest : List Request) :
    c.Goes s (Service.unqueued s rest) := h.inner (.of_eq rfl)

theorem follows_discardTask (t : Task) : Follows c (Service.discardTask p.logged t) :=
  follows_bind (h.follows_inner fun _ => .of_eq rfl) fun _ =>
    follows_bind (follows_shielded h.cancels) fun _ => h.follows_dropTask t

theorem follows_windUp : Follows c (Service.windUp p.logged) :=
  follows_bind (h.follows_inner fun _ => .of_eq rfl) fun _ =>
    follows_bind (Service.follows_emptyQueue h.stuck h.goes_unqueued h.follows_reply
      h.follows_discardTask _) fun _ =>
    follows_bind h.follows_release fun _ => h.follows_inner fun _ => .of_eq rfl

theorem follows_exit {m : Run (Log × ω) Unit} (hm : Follows c m) :
    Follows c (Service.exit p.logged m) :=
  follows_bind (follows_guarded (follows_ensuring hm h.follows_drop h.stops)) fun _ =>
    h.follows_inner fun _ => .of_eq rfl

theorem follows_leave (cause : Option Panic) : Follows c (Service.leave p.logged cause) := by
  cases cause with
  | none => exact h.follows_exit (follows_onPanic h.follows_windUp h.follows_windUp h.stops)
  | some q =>
    exact h.follows_exit (follows_ensuring (fun s => h.panics s) h.follows_windUp h.stops)

theorem follows_closeHere : Follows c (closeHere p.logged) :=
  follows_ensuring (follows_bind h.follows_release fun _ =>
    h.follows_inner fun _ => .of_eq rfl) h.follows_drop h.stops

theorem follows_answered (call : Call) : Follows c (answered p.logged call) := by
  intro s
  have hgoes := h.inner (Inner.ofAnswer (p := p) .caller call s)
  unfold answered
  rcases ha : answer p.logged .caller call s with ⟨_ | a, s₁⟩ <;> rw [ha] at hgoes
  · exact c.sticks hgoes (h.stuck s₁)
  · exact hgoes

theorem follows_dropHandle : Follows c (dropHandle p.logged) := by
  intro s
  have hleft : c.Goes s s.giveUpHandle := h.inner (.ofFiled (giveUpHandle_filed s))
  have hclosed : c.Goes s.giveUpHandle { s.giveUpHandle with life := .closed } :=
    h.inner (.ofLife _ (by simp))
  unfold dropHandle
  rw [get_bind_apply, bind_apply, set_apply]
  dsimp only
  split
  · rw [bind_apply, set_apply]
    exact (h.follows_closeHere _).after (c.trans hleft hclosed)
  · exact hleft

theorem close_allows (hlife : s.life ≠ .threaded) :
    c.Allows (close p.logged s).1 s (close p.logged s).2 := by
  have hclosed : c.Goes s { s with life := .closed } :=
    h.inner (.ofLife _ (by simp))
  unfold close
  rw [get_bind_apply, bind_apply, set_apply]
  dsimp only
  refine Allows.after ?_ hclosed
  cases hl : s.life with
  | idle | inCaller => exact h.follows_closeHere _
  | threaded => exact absurd hl hlife
  | closed =>
    dsimp only
    split
    · exact h.stuck _
    · exact c.refl _

theorem assign_allows (t : Task) (hlife : s.life ≠ .inCaller) :
    c.Allows (assign p.logged t s).1 s (assign p.logged t s).2 := by
  unfold assign
  rw [get_bind_apply]
  unfold refusal
  cases hl : s.life with
  | idle | closed => exact c.refl s
  | inCaller => exact absurd hl hlife
  | threaded =>
    have hgoes := h.inner (.ofFiled (enqueue_filed s t))
    rcases hr : s.enqueue t with ⟨_ | _, s₁⟩ <;> rw [hr] at hgoes <;> exact hgoes

end Tends
end Session
end DatabaseSession
