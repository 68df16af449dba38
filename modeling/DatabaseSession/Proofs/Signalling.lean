import DatabaseSession.Proofs.Lifetime

namespace DatabaseSession

open Course Run Session

variable {ω α : Type}

namespace Session

/-- The worker and the signal are as before, and so is the life cycle but for the closing of a
threaded session. -/
structure Steady (s s' : Session ω) : Prop where
  receiving : s'.mailbox.receiving = s.mailbox.receiving
  terminated : s'.terminated = s.terminated
  life : s'.life = s.life ∨ s.life = .threaded ∧ s'.life = .closed

namespace Steady

theorem refl (s : Session ω) : Steady s s := ⟨rfl, rfl, .inl rfl⟩

theorem trans {a b c : Session ω} (h : Steady a b) (h' : Steady b c) : Steady a c where
  receiving := h'.receiving.trans h.receiving
  terminated := h'.terminated.trans h.terminated
  life := by
    rcases h.life with hl | ⟨hl, hc⟩
    · rw [← hl]
      exact h'.life
    · refine .inr ⟨hl, ?_⟩
      rcases h'.life with hl' | ⟨-, hl'⟩
      · exact hl'.trans hc
      · exact hl'

theorem ofAttends {s s' : Session ω} (h : Attends s s') (hterm : s'.terminated = s.terminated) :
    Steady s s' :=
  ⟨h.receiving, hterm, h.life.imp_right fun hl => ⟨hl.1, hl.2.1⟩⟩

theorem ofUses {P : Duty → Prop} {s s' : Session (Log × ω)} (h : Uses P s s') : Steady s s' :=
  .ofAttends h.toAttends h.terminated

theorem retired {s s' : Session ω} (h : Steady s s') (hs : Retired s) : Retired s' :=
  retired_stable h.receiving h.life hs

end Steady
end Session

/-- The course of what neither stops the worker nor signals the end. -/
def Course.steady (ω : Type) : Course ω := .ofGrowth Steady .refl .trans

theorem Run.steady_of_inUse {m : Run (Log × ω) α} (h : Follows (inUse ω) m) :
    Follows (steady (Log × ω)) m := by
  intro s
  have hs := h s
  rcases hr : m s with ⟨(_ | _ | _) | _, s'⟩ <;> rw [hr] at hs <;> exact Steady.ofUses hs

theorem Course.steady_permits (p : Parties ω) (d : Duty) : (steady (Log × ω)).Permits p d :=
  permits_of fun ht =>
    have h := Steady.ofAttends ht.toAttends ht.terminated
    allows_of_panics h h

namespace Link

theorem steady_release (p : Parties ω) : Follows (steady (Log × ω)) (release p.logged) :=
  follows_release (fun _ => ⟨rfl, rfl, .inl rfl⟩) (fun i _ _ => steady_permits p (.onClose i) _)
    (steady_permits p .release _)

theorem steady_drop (p : Parties ω) : Follows (steady (Log × ω)) (drop p.logged) :=
  follows_drop (steady_release p) (steady_permits p .dispose _) id

end Link

namespace Service

theorem steady_emptyQueue (p : Parties ω) (patience : Nat) :
    Follows (steady (Log × ω)) (emptyQueue p.logged patience) :=
  follows_emptyQueue (c := steady _) Steady.refl (fun _ _ => ⟨rfl, rfl, .inl rfl⟩)
    (fun ticket r => steady_of_inUse (inUse_reply ticket r))
    (fun t => steady_of_inUse (inUse_discardTask p t)) patience

theorem leaves_windUp (p : Parties ω) :
    Leaves (fun s => s.terminated.isSet = true) (windUp p) := by
  refine leaves_bind fun _ => leaves_bind fun _ => leaves_bind fun _ => ?_
  intro s _ s' hrun
  cases hrun
  rfl

end Service

namespace Session

/-- A session out of its owner's hands that has a worker, or whose end has been signalled. -/
structure Assured (s : Session ω) : Prop where
  retired : Retired s
  ending : s.mailbox.receiving = true ∨ s.terminated.isSet = true

theorem Assured.steady {s s' : Session ω} (h : Assured s) (hs : Steady s s') : Assured s' where
  retired := hs.retired h.retired
  ending := by
    rw [hs.receiving, hs.terminated]
    exact h.ending

/-- There is somebody who has to signal the end, or it has been signalled. -/
def Answerable (s : Session ω) : Prop :=
  (s.life = .idle ∨ s.life = .inCaller) ∧ Unattended s ∨ Assured s

theorem Answerable.steady {s s' : Session ω} (h : Answerable s) (hs : Steady s s') :
    Answerable s' := by
  rcases h with ⟨hlife, hworker⟩ | hassured
  · refine .inl ⟨?_, hs.receiving.trans hworker⟩
    rcases hs.life with hl | ⟨hl, -⟩
    · rwa [hl]
    · simp [hl] at hlife
  · exact .inr (hassured.steady hs)

theorem Answerable.assured {s : Session ω} (h : Answerable s) (hs : s.mailbox.receiving = true) :
    Assured s := by
  refine h.resolve_left fun hl => ?_
  have hgone : s.mailbox.receiving = false := hl.2
  simp [hgone] at hs

end Session

/-- What holds of a session goes on to hold. -/
def Course.keeping (F : Session ω → Prop) : Course ω :=
  .ofGrowth (fun s s' => F s → F s') (fun _ h => h) fun h h' hs => h' (h hs)

theorem Run.keeping_of_steady {F : Session ω → Prop} (hF : Stable F) {m : Run ω α}
    (h : Follows (steady ω) m) : Follows (keeping F) m := by
  intro s
  have hs := h s
  rcases hr : m s with ⟨(_ | _ | _) | _, s'⟩ <;> rw [hr] at hs <;> exact hF hs.receiving hs.life

namespace Service

theorem keeping_windUp (p : Parties ω) :
    Follows (keeping (Retired : Session (Log × ω) → Prop)) (windUp p.logged) :=
  follows_bind (follows_modify fun _ h => h) fun _ =>
    follows_bind (keeping_of_steady retired_stable (steady_emptyQueue p _)) fun _ =>
      follows_bind (keeping_of_steady retired_stable (Link.steady_release p)) fun _ =>
        follows_modify fun _ h => h

theorem keeping_exit (p : Parties ω) {m : Run (Log × ω) Unit}
    (hm : Follows (keeping (Retired : Session (Log × ω) → Prop)) m) :
    Follows (keeping (Retired : Session (Log × ω) → Prop)) (exit p.logged m) :=
  have hdrop := keeping_of_steady retired_stable (Link.steady_drop p)
  follows_bind (follows_guarded (follows_ensuring hm hdrop id)) fun _ => follows_modify fun _ h => h

/-- Whenever the computation comes back, with a value or not, the end has been signalled. -/
def Signals (m : Run ω α) : Prop :=
  ∀ {s x s'}, m s = (x, s') → x ≠ .error .hang → s'.terminated.isSet = true

/-- A worker that panics when it winds up does so again, and a second panic would take all down. -/
theorem signals_told (p : Parties ω) : Signals (onPanic (windUp p) (windUp p)) := by
  intro s x s' hrun hx
  have hleaves := leaves_windUp p
  have hstops := stops_windUp p
  unfold onPanic at hrun
  rcases hfirst : windUp p s with ⟨(e | q | _) | _, s₁⟩ <;> rw [hfirst] at hrun <;>
    dsimp only at hrun
  · exact absurd rfl (hstops s (.error e) (by rw [hfirst]) e)
  · rcases hsecond : windUp p s₁ with ⟨(e | q' | _) | _, s₂⟩ <;> rw [hsecond] at hrun <;> cases hrun
    · exact absurd rfl (hstops s₁ (.error e) (by rw [hsecond]) e)
    · exact absurd rfl hx
    · exact absurd rfl hx
    · exact hleaves s₁ () _ hsecond
  · cases hrun
    exact absurd rfl hx
  · cases hrun
    exact hleaves s () _ hfirst

theorem signals_panicked (p : Parties ω) (q : Panic) :
    Signals (ensuring (throw (.panic q) : Run ω Unit) (windUp p)) := by
  intro s x s' hrun hx
  have hthrow : (throw (.panic q) : Run ω Unit) s = (.error (.panic q), s) := rfl
  have hstops := stops_windUp p
  unfold ensuring at hrun
  rw [hthrow] at hrun
  dsimp only at hrun
  rcases hwind : windUp p s with ⟨(e | q' | _) | _, s₁⟩ <;> rw [hwind] at hrun <;> cases hrun
  · exact absurd rfl (hstops s (.error e) (by rw [hwind]) e)
  · exact absurd rfl hx
  · exact absurd rfl hx
  · exact leaves_windUp p s () _ hwind

/-- A worker that comes to its end takes no more requests. -/
theorem exit_runs {p : Parties ω} {m : Run (Log × ω) Unit} {s s' : Session (Log × ω)}
    {x : Except Stop Unit} (hstop : Stops Unfailing m) (hrun : exit p.logged m s = (x, s'))
    (hx : x ≠ .error .hang) : ∃ y s₁, ensuring m (Link.drop p.logged) s = (y, s₁) ∧
      y ≠ .error .hang ∧ s' = { s₁ with mailbox := { s₁.mailbox with receiving := false } } := by
  have hunfailing : Stops Unfailing (ensuring m (Link.drop p.logged)) :=
    stops_ensuring (unfailing_hang rfl) hstop (Link.stops_drop p.logged)
  unfold exit at hrun
  rw [bind_apply, guarded] at hrun
  rcases hens : ensuring m (Link.drop p.logged) s with ⟨(e | q | _) | _, s₁⟩ <;>
    rw [hens] at hrun <;> cases hrun
  · exact absurd rfl (hunfailing s (.error e) (by rw [hens]) e)
  · exact ⟨_, s₁, rfl, by simp, rfl⟩
  · exact absurd rfl hx
  · exact ⟨_, s₁, rfl, by simp, rfl⟩

theorem exit_unattended {p : Parties ω} {m : Run (Log × ω) Unit} {s s' : Session (Log × ω)}
    {x : Except Stop Unit} (hstop : Stops Unfailing m) (hrun : exit p.logged m s = (x, s'))
    (hx : x ≠ .error .hang) : Unattended s' := by
  obtain ⟨_, _, -, -, rfl⟩ := exit_runs hstop hrun hx
  rfl

theorem exit_assured (p : Parties ω) {m : Run (Log × ω) Unit} {s s' : Session (Log × ω)}
    {x : Except Stop Unit} (hstop : Stops Unfailing m)
    (hkeeping : Follows (keeping (Retired : Session (Log × ω) → Prop)) m)
    (hm : ∀ y s₁, m s = (y, s₁) → y ≠ .error .hang → s₁.terminated.isSet = true)
    (hrun : exit p.logged m s = (x, s')) (hx : x ≠ .error .hang) (hlife : Retired s) :
    Assured s' := by
  have hretired := (keeping_exit p hkeeping).goes hrun hx hlife
  obtain ⟨y, s₁, hens, hy, rfl⟩ := exit_runs hstop hrun hx
  obtain ⟨z, s₂, u, hms, hz, hdrop, hu⟩ := ensuring_runs hens hy
  refine ⟨hretired, .inr ?_⟩
  change s₁.terminated.isSet = true
  rw [((Link.steady_drop p).goes hdrop hu).terminated]
  exact hm z s₂ hms hz

theorem leave_assured (p : Parties ω) (cause : Option Panic) {s s' : Session (Log × ω)}
    {x : Except Stop Unit} (hrun : leave p.logged cause s = (x, s')) (hx : x ≠ .error .hang)
    (hlife : Retired s) : Assured s' := by
  cases cause with
  | none =>
    exact exit_assured p (stops_onPanic (unfailing_hang rfl) (stops_windUp p.logged))
      (follows_onPanic (keeping_windUp p) (keeping_windUp p) id)
      (fun _ _ h => signals_told p.logged h) hrun hx hlife
  | some q =>
    have hkeeping : Follows (keeping (Retired : Session (Log × ω) → Prop)) (throw (.panic q) :
        Run (Log × ω) Unit) := fun _ h => h
    exact exit_assured p
      (stops_ensuring (unfailing_hang rfl) (stops_panic q) (stops_windUp p.logged))
      (follows_ensuring hkeeping (keeping_windUp p) id)
      (fun _ _ h => signals_panicked p.logged q h) hrun hx hlife

end Service

theorem Run.bind_pure_runs {β : Type} {m : Run ω α} {b : β} {s s' : Session ω}
    {x : Except Stop β} (hrun : (m >>= fun _ => pure b) s = (x, s')) (hx : x ≠ .error .hang) :
    ∃ y, m s = (y, s') ∧ y ≠ .error .hang := by
  rw [bind_apply] at hrun
  rcases hms : m s with ⟨stop | a, s₁⟩ <;> rw [hms] at hrun <;> cases hrun
  · exact ⟨_, rfl, by simpa using hx⟩
  · exact ⟨_, rfl, by simp⟩

namespace Service

/-- A worker that is told to stop, or that panics, does not go without a signal. -/
theorem attendTo_assured (p : Parties ω) (request : Request) {s s' : Session (Log × ω)}
    {x : Except Stop Bool} (hrun : attendTo p.logged request s = (x, s')) (hx : x ≠ .error .hang)
    (hs : Assured s) : Assured s' := by
  have hsteady := steady_of_inUse (inUse_handle p request) s
  have hstops := stops_handle p.logged request s
  unfold attendTo at hrun
  rw [bind_apply, guarded] at hrun
  rcases hhandle : handle p.logged request s with ⟨(e | q | _) | _ | _, s₁⟩ <;>
    rw [hhandle] at hrun hsteady hstops <;> dsimp only at hrun
  · exact absurd rfl (hstops _ rfl e)
  · obtain ⟨y, hexit, hy⟩ := bind_pure_runs hrun hx
    exact leave_assured p (some q) hexit hy (hs.steady hsteady).retired
  · cases hrun
    exact absurd rfl hx
  · obtain ⟨y, hexit, hy⟩ := bind_pure_runs hrun hx
    exact leave_assured p none hexit hy (hs.steady hsteady).retired
  · cases hrun
    exact hs.steady hsteady

theorem step_assured (p : Parties ω) {s s' : Session (Log × ω)} {x : Except Stop Bool}
    (hrun : step p.logged s = (x, s')) (hx : x ≠ .error .hang) (hs : Assured s) : Assured s' := by
  cases hq : s.mailbox.queue with
  | nil =>
    rw [step_empty _ hq] at hrun
    cases hrun
    exact hs
  | cons request rest =>
    rw [step_cons _ hq] at hrun
    exact attendTo_assured p request hrun hx ⟨hs.retired, hs.ending⟩

/-- A worker whose first connect fails signals the end before it reports that. -/
theorem startup_cases (p : Parties ω) {s s' : Session (Log × ω)}
    {x : Except Stop (Except Error Unit)} (hrun : startup p.logged s = (x, s'))
    (hx : x ≠ .error .hang) :
    (∀ e, x ≠ .ok (.error e)) ∧ Steady s s' ∨
      (∃ e, x = .ok (.error e)) ∧ s'.terminated.isSet = true ∧ (Retired s → Retired s') := by
  have hconnect := steady_of_inUse (Link.inUse_connect p) s
  unfold startup at hrun
  rw [bind_apply, attempt] at hrun
  rcases hr : Link.connect p.logged s with ⟨(e | q | _) | _, s₁⟩ <;> rw [hr] at hrun hconnect <;>
    dsimp only at hrun
  · have hrelease := Link.steady_release p s₁
    rw [bind_apply] at hrun
    rcases hr₂ : Link.release p.logged s₁ with ⟨(e' | q | _) | _, s₂⟩ <;>
      rw [hr₂] at hrun hrelease <;> cases hrun
    · exact absurd rfl (Link.stops_release p.logged s₁ (.error e') (by rw [hr₂]) e')
    · exact .inl ⟨by simp, Steady.trans hconnect hrelease⟩
    · exact absurd rfl hx
    · exact .inr ⟨⟨e, rfl⟩, rfl, (Steady.trans hconnect hrelease).retired⟩
  · cases hrun
    exact .inl ⟨by simp, hconnect⟩
  · cases hrun
    exact absurd rfl hx
  · obtain ⟨y, hpublish, hy⟩ := bind_pure_runs hrun hx
    have hsteady : Steady s₁ s' := (steady_of_inUse (Link.inUse_publish p)).goes hpublish hy
    refine .inl ⟨?_, Steady.trans hconnect hsteady⟩
    rintro e rfl
    rw [bind_apply, hpublish] at hrun
    rcases y with _ | _ <;> cases hrun

theorem launch_assured (p : Parties ω) {s s' : Session (Log × ω)}
    {x : Except Stop (Except Error Unit)} (hrun : launch p.logged s = (x, s'))
    (hx : x ≠ .error .hang) (hlife : Retired s) : Assured s' := by
  unfold launch at hrun
  rw [bind_apply, modify_apply] at hrun
  dsimp only at hrun
  rw [bind_apply, guarded] at hrun
  have hstops := stops_startup p.logged
  rcases hstart : startup p.logged
    { s with mailbox := { s.mailbox with receiving := true } } with ⟨(e | q | _) | e | _, s₁⟩ <;>
    rw [hstart] at hrun <;> dsimp only at hrun
  · exact absurd rfl (hstops _ (.error e) (by rw [hstart]) e)
  · rcases startup_cases p hstart (by simp) with ⟨-, hsteady⟩ | ⟨⟨e, he⟩, -⟩
    · rw [bind_apply] at hrun
      rcases hexit : leave p.logged (some q) s₁ with
        ⟨stop | _, s₂⟩ <;> rw [hexit] at hrun <;> cases hrun
      · exact leave_assured p (some q) hexit (by simpa using hx) (hsteady.retired hlife)
      · exact leave_assured p (some q) hexit (by simp) (hsteady.retired hlife)
    · cases he
  · cases hrun
    exact absurd rfl hx
  · rcases startup_cases p hstart (by simp) with ⟨hne, -⟩ | ⟨-, hsignalled, hretired⟩
    · exact absurd rfl (hne e)
    · obtain ⟨y, hexit, hy⟩ := bind_pure_runs hrun hx
      refine exit_assured p (stops_pure ()) (follows_pure ()) ?_ hexit hy (hretired hlife)
      intro z s₂ hpure _
      cases hpure
      exact hsignalled
  · rcases startup_cases p hstart (by simp) with ⟨-, hsteady⟩ | ⟨⟨e, he⟩, -⟩
    · cases hrun
      exact ⟨hsteady.retired hlife, .inl hsteady.receiving⟩
    · cases he

end Service

namespace Session

/-- A session without a worker is closed, and its owner is at work on it. -/
def Vacant (s : Session ω) : Prop := Retired s ∧ Unattended s

theorem vacant_stable : Stable (Vacant : Session ω → Prop) := retired_stable.and unattended_stable

theorem Vacant.steady {s s' : Session ω} (hs : Vacant s) (h : Steady s s') : Vacant s' :=
  vacant_stable h.receiving h.life hs

/-- A first connect in the caller that fails is followed by the signal, but not one that panics. -/
theorem startInCaller_cases (p : Parties ω) {s s' : Session (Log × ω)} {x : Except Stop Unit}
    (hrun : startInCaller p.logged s = (x, s')) (hx : x ≠ .error .hang) (hs : Vacant s) :
    (∀ q, x ≠ .error (.panic q)) ∧ Answerable s' ∨ Vacant s' ∧ ∃ q, x = .error (.panic q) := by
  have hconnect := steady_of_inUse (Link.inUse_connect p) s
  unfold startInCaller at hrun
  rw [bind_apply, attempt] at hrun
  rcases hr : Link.connect p.logged s with ⟨(e | q | _) | _, s₁⟩ <;> rw [hr] at hrun hconnect <;>
    dsimp only at hrun
  · have hrelease := Link.steady_release p s₁
    rw [bind_apply] at hrun
    rcases hr₂ : Link.release p.logged s₁ with ⟨(e' | q | _) | _, s₂⟩ <;>
      rw [hr₂] at hrun hrelease <;> dsimp only at hrun
    · exact absurd rfl (Link.stops_release p.logged s₁ (.error e') (by rw [hr₂]) e')
    · cases hrun
      exact .inr ⟨hs.steady (Steady.trans hconnect hrelease), q, rfl⟩
    · cases hrun
      exact absurd rfl hx
    · -- the signal is given before the link is dropped
      have hvacant := hs.steady (Steady.trans hconnect hrelease)
      have hdrop := Link.steady_drop p { s₂ with terminated := s₂.terminated.set }
      rw [bind_apply, modify_apply] at hrun
      dsimp only at hrun
      rw [bind_apply] at hrun
      rcases hr₃ : Link.drop p.logged { s₂ with terminated := s₂.terminated.set } with
        ⟨(e' | q | _) | _, s₃⟩ <;> rw [hr₃] at hrun hdrop <;> cases hrun
      · exact absurd rfl (Link.stops_drop p.logged _ (.error e') (by rw [hr₃]) e')
      · exact .inr ⟨vacant_stable hdrop.receiving hdrop.life hvacant, q, rfl⟩
      · exact absurd rfl hx
      · have hvacant' : Vacant s' := vacant_stable hdrop.receiving hdrop.life hvacant
        exact .inl ⟨by simp, .inr ⟨hvacant'.1, .inr (by rw [hdrop.terminated]; rfl)⟩⟩
  · cases hrun
    exact .inr ⟨hs.steady hconnect, q, rfl⟩
  · cases hrun
    exact absurd rfl hx
  · -- once all is made known, the session is open in its caller
    have hpublish := steady_of_inUse (Link.inUse_publish p) s₁
    rw [bind_apply] at hrun
    rcases hr₂ : Link.publish p.logged s₁ with ⟨(e | q | _) | _, s₂⟩ <;>
      rw [hr₂] at hrun hpublish <;> cases hrun
    · exact absurd rfl (Link.stops_publish p.logged s₁ (.error e) (by rw [hr₂]) e)
    · exact .inr ⟨hs.steady (Steady.trans hconnect hpublish), q, rfl⟩
    · exact absurd rfl hx
    · exact .inl ⟨by simp, .inl ⟨.inr rfl, (hs.steady (Steady.trans hconnect hpublish)).2⟩⟩

theorem holding_runs {m : Run ω α} {s s' : Session ω} {x : Except Stop α}
    (hrun : holding m s = (x, s')) (hx : x ≠ .error .hang) :
    ∃ s₁, m { s with locked := true } = (x, s₁) ∧ s' = { s₁ with locked := false } := by
  unfold holding at hrun
  rw [bind_apply, modify_apply] at hrun
  dsimp only at hrun
  unfold ensuring at hrun
  rcases hms : m { s with locked := true } with ⟨(e | q | _) | a, s₁⟩ <;> rw [hms] at hrun <;>
    cases hrun
  case error.hang => exact absurd rfl hx
  all_goals exact ⟨s₁, rfl, rfl⟩

theorem enter_threaded (p : Parties ω) {s s' : Session (Log × ω)} {x : Except Stop Unit}
    (hrun : enter p.logged true s = (x, s')) (hx : x ≠ .error .hang) (hlife : Retired s) :
    Assured s' := by
  unfold enter at hrun
  rw [if_pos rfl, bind_apply] at hrun
  rcases hlaunch : Service.launch p.logged s with ⟨stop | e | _, s₁⟩ <;> rw [hlaunch] at hrun <;>
    cases hrun
  · exact Service.launch_assured p hlaunch (by simpa using hx) hlife
  · exact Service.launch_assured p hlaunch (by simp) hlife
  · exact ⟨.inr rfl, (Service.launch_assured p hlaunch (by simp) hlife).ending⟩

theorem enter_inCaller (p : Parties ω) {s s' : Session (Log × ω)} {x : Except Stop Unit}
    (hrun : enter p.logged false s = (x, s')) (hx : x ≠ .error .hang) (hs : Vacant s) :
    (∀ q, x ≠ .error (.panic q)) ∧ Answerable s' ∨ Vacant s' ∧ ∃ q, x = .error (.panic q) := by
  unfold enter onPanic at hrun
  rw [if_neg (by simp)] at hrun
  rcases hcaller : startInCaller p.logged s with ⟨(e | q | _) | _, s₁⟩ <;>
    rw [hcaller] at hrun <;> dsimp only at hrun
  · cases hrun
    exact startInCaller_cases p hcaller (by simp) hs
  · rcases startInCaller_cases p hcaller (by simp) hs with ⟨hne, -⟩ | ⟨hvacant, -⟩
    · exact absurd rfl (hne q)
    · have hdrop := Link.steady_drop p s₁
      rcases hr : Link.drop p.logged s₁ with ⟨(_ | _ | _) | _, s₂⟩ <;> rw [hr] at hrun hdrop <;>
        cases hrun
      · exact .inr ⟨hvacant.steady hdrop, q, rfl⟩
      · exact absurd rfl hx
      · exact absurd rfl hx
      · exact .inr ⟨hvacant.steady hdrop, q, rfl⟩
  · cases hrun
    exact absurd rfl hx
  · cases hrun
    exact startInCaller_cases p hcaller (by simp) hs

theorem start_cases (p : Parties ω) {s s' : Session (Log × ω)} {x : Except Stop Unit}
    (hrun : start p.logged s = (x, s')) (hx : x ≠ .error .hang) (hlife : s.life = .idle)
    (hworker : Unattended s) :
    (s.settings.threaded = false → ∀ q, x ≠ .error (.panic q)) ∧ Answerable s' ∨
      s.settings.threaded = false ∧ Vacant s' ∧ ∃ q, x = .error (.panic q) := by
  rw [start_idle _ hlife] at hrun
  obtain ⟨s₁, henter, rfl⟩ := holding_runs hrun hx
  have hvacant : Vacant { s with life := .closed, locked := true } := ⟨.inl rfl, hworker⟩
  have hunlock : Steady s₁ { s₁ with locked := false } := ⟨rfl, rfl, .inl rfl⟩
  cases hthreaded : s.settings.threaded with
  | true =>
    rw [hthreaded] at henter
    exact .inl ⟨by simp, .inr ((enter_threaded p henter hx hvacant.1).steady hunlock)⟩
  | false =>
    rw [hthreaded] at henter
    rcases enter_inCaller p henter hx hvacant with ⟨hne, h⟩ | ⟨h, hq⟩
    · exact .inl ⟨fun _ => hne, h.steady hunlock⟩
    · exact .inr ⟨rfl, h.steady hunlock, hq⟩

theorem closeHere_cases (p : Parties ω) {s s' : Session (Log × ω)} {x : Except Stop Unit}
    (hrun : closeHere p.logged s = (x, s')) (hx : x ≠ .error .hang) (hs : Vacant s) :
    Vacant s' ∧ (s'.terminated.isSet = true ∨ ∃ q, x = .error (.panic q)) := by
  obtain ⟨y, s₁, z, hfirst, hy, hdrop, hz⟩ := ensuring_runs hrun hx
  have hsteady : Steady s₁ s' := (Link.steady_drop p).goes hdrop hz
  have hrelease := Link.steady_release p s
  unfold closeHere ensuring at hrun
  rw [bind_apply] at hfirst
  rcases hr : Link.release p.logged s with ⟨(e | q | _) | _, s₂⟩ <;> rw [hr] at hfirst hrelease <;>
    cases hfirst
  · exact absurd rfl (Link.stops_release p.logged s (.error e) (by rw [hr]) e)
  · refine ⟨(hs.steady hrelease).steady hsteady, .inr ⟨q, ?_⟩⟩
    rw [bind_apply, hr] at hrun
    dsimp only at hrun
    rw [hdrop] at hrun
    rcases z with (_ | _ | _) | _ <;> cases hrun
    · rfl
    · exact absurd rfl hx
    · exact absurd rfl hx
    · rfl
  · exact absurd rfl hy
  · have hvacant : Vacant s₂ := hs.steady hrelease
    have hset : Vacant { s₂ with terminated := s₂.terminated.set } := hvacant
    exact ⟨hset.steady hsteady, .inl (by rw [hsteady.terminated]; rfl)⟩

/-- A session without a worker is opened, or torn down by its owner, and that panics before the end
has been signalled. -/
inductive Botched (p : Parties ω) (s s' : Session (Log × ω)) : Prop where
  | opening {q : Panic} (hlife : s.life = .idle) (hthreaded : s.settings.threaded = false)
      (hrun : start p.logged s = (.error (.panic q), s')) (hunset : s'.terminated.isSet = false)
  | closing {q : Panic} {left : Session (Log × ω)}
      (hlife : left.life = .idle ∨ left.life = .inCaller) (hfiled : Filed s left)
      (hrun : closeHere p.logged { left with life := .closed } = (.error (.panic q), s'))
      (hunset : s'.terminated.isSet = false)

variable {p : Parties ω} {s s' : Session (Log × ω)}

theorem Answerable.unattended (h : Answerable s) (hl : s.life = .idle ∨ s.life = .inCaller) :
    Unattended s := by
  rcases h with ⟨-, hworker⟩ | hassured
  · exact hworker
  · exact absurd hl hassured.retired.not_owned

theorem Answerable.filed {left : Session (Log × ω)} (h : Answerable s) (hfiled : Filed s left) :
    Answerable left :=
  h.steady (.ofUses (P := fun _ => True) (.ofFiled hfiled))

theorem Botched.vacant (h : Botched p s s') (hs : Answerable s) : Vacant s' := by
  cases h with
  | opening hlife hthreaded hrun hunset =>
    rcases start_cases p hrun (by simp) hlife (hs.unattended (.inl hlife)) with ⟨hne, -⟩ | ⟨-, h, -⟩
    · exact absurd rfl (hne hthreaded _)
    · exact h
  | closing hlife hfiled hrun hunset =>
    exact (closeHere_cases p hrun (by simp) ⟨.inl rfl, (hs.filed hfiled).unattended hlife⟩).1

theorem Botched.unset (h : Botched p s s') : s'.terminated.isSet = false := by
  cases h with
  | opening _ _ _ hunset => exact hunset
  | closing _ _ _ hunset => exact hunset

namespace Move

/-- The one who has to signal the end of a session hands that on or does it, unless a panic comes
between. -/
theorem answerable (h : Move p s s') (hs : Answerable s) : Answerable s' ∨ Botched p s s' := by
  cases h with
  | used h => exact .inl (hs.steady (.ofUses h.inUse))
  | @starts x hl hrun hx =>
    rcases start_cases p hrun hx hl (hs.unattended (.inl hl)) with
      ⟨-, h⟩ | ⟨hthreaded, hvacant, q, rfl⟩
    · exact .inl h
    · cases hset : s'.terminated.isSet with
      | true => exact .inl (.inr ⟨hvacant.1, .inr hset⟩)
      | false => exact .inr (.opening hl hthreaded hrun hset)
  | closes hl hfiled hrun hx =>
    have hleft := (hs.filed hfiled).unattended hl
    obtain ⟨hvacant, hend⟩ := closeHere_cases p hrun hx ⟨.inl rfl, hleft⟩
    cases hset : s'.terminated.isSet with
    | true => exact .inl (.inr ⟨hvacant.1, .inr hset⟩)
    | false =>
      obtain ⟨q, rfl⟩ := hend.resolve_left (by simp [hset])
      exact .inr (.closing hl hfiled hrun hset)
  | works hattended hrun hx =>
    exact .inl (.inr (Service.step_assured p hrun hx (hs.assured hattended)))

theorem steady_of_vacant (h : Move p s s') (hs : Vacant s) : Steady s s' := by
  cases h with
  | used h => exact .ofUses h.inUse
  | starts hl => exact absurd (.inl hl) hs.1.not_owned
  | closes hl hfiled =>
    have hfiled := Steady.ofUses (P := fun _ => True) (.ofFiled hfiled)
    exact absurd hl (hs.steady hfiled).1.not_owned
  | works hattended =>
    have hunattended : s.mailbox.receiving = false := hs.2
    simp [hunattended] at hattended

end Move

/-- The one who has to signal the end panics in this episode. -/
def Episode.IsBotched (e : Episode ω) : Prop := Botched e.parties e.before e.after

namespace Lives

variable {t : Session (Log × ω)} {life : List (Episode ω)}

theorem steady_of_vacant (h : Lives s life t) (hs : Vacant s) : Steady s t := by
  induction h with
  | refl => exact .refl s
  | step _ hdeed hx ih => exact ih.trans ((hdeed.moves hx).steady_of_vacant (hs.steady ih))

theorem answerable (h : Lives s life t) (hs : Answerable s) :
    Answerable t ∨ ∃ e ∈ life, Answerable e.before ∧ e.IsBotched := by
  induction h with
  | refl => exact .inl hs
  | @step p k x life t a u hlives hdeed hx ih =>
    rcases ih with ht | ⟨e, he, hans, hbotched⟩
    · rcases (hdeed.moves hx).answerable ht with hu | hbotched
      · exact .inl hu
      · exact .inr ⟨⟨p, k, t, a, u⟩, by simp, ht, hbotched⟩
    · exact .inr ⟨e, List.mem_append_left _ he, hans, hbotched⟩

end Lives

theorem create_answerable (id name : String) (options : Options) (settings : Settings) (w : ω) :
    Answerable (create id name options settings w) := .inl ⟨.inl rfl, rfl⟩

theorem Answerable.signalled (h : Answerable s) (hlife : s.life = .closed)
    (hworker : Unattended s) : s.terminated.isSet = true := by
  have hassured := h.resolve_left (by simp [hlife])
  have hgone : s.mailbox.receiving = false := hworker
  exact hassured.ending.resolve_left (by simp [hgone])

theorem Botched.answerable (h : Botched p s s') (hs : Answerable s ∨ Vacant s) : Answerable s := by
  refine hs.resolve_right fun hvacant => ?_
  cases h with
  | opening hlife => exact hvacant.1.not_owned (.inl hlife)
  | closing hlife hfiled =>
    have hleft := hvacant.steady (.ofUses (P := fun _ => True) (.ofFiled hfiled))
    exact hleft.1.not_owned hlife

theorem Lives.answerable_or_vacant {t : Session (Log × ω)} {life : List (Episode ω)}
    (h : Lives s life t) (hs : Answerable s) : Answerable t ∨ Vacant t := by
  rcases h.answerable hs with ht | ⟨e, he, hans, hbotched⟩
  · exact .inl ht
  · obtain ⟨earlier, later, rfl⟩ := List.append_of_mem he
    have hvacant := hbotched.vacant hans
    exact .inr (hvacant.steady (h.split.2.2.steady_of_vacant hvacant))

theorem close_closed (p : Parties ω) {s : Session ω} (hlife : s.life = .closed) :
    close p s = (if s.terminated.isSet then .ok () else .error .hang, s) := by
  have hsame : { s with life := .closed } = s := by rw [← hlife]
  unfold close
  rw [get_bind_apply, bind_apply, set_apply, hlife, hsame]
  cases s.terminated.isSet <;> rfl

/-- The end of a session that is closed and has no worker has been signalled, unless it was opened
in the caller or torn down by its owner and that panicked. Whoever closes it again then waits for a
signal that nobody sends. -/
theorem signalled_iff_not_botched {id name : String} {options : Options} {settings : Settings}
    {w : ω} {life : List (Episode ω)}
    (hlives : Lives (create id name options settings (([] : Log), w)) life s)
    (hlife : s.life = .closed) (hworker : s.mailbox.receiving = false) :
    (s.terminated.isSet = true ↔ ∀ e ∈ life, ¬ e.IsBotched) ∧
    (s.terminated.isSet = true ↔ ¬ ∃ (p : Parties ω) (a b : Session (Log × ω))
      (earlier later : List (Episode ω)),
      Lives (create id name options settings (([] : Log), w)) earlier a ∧ Botched p a b ∧
        Lives b later s) ∧
    ∀ later t, Lives s later t → t.terminated = s.terminated ∧
      ∀ p : Parties ω,
        close p.logged t = (if s.terminated.isSet then .ok () else .error .hang, t) := by
  have hcreated := create_answerable id name options settings (([] : Log), w)
  -- where the end was botched nobody is left, so nothing signals it later
  have hunset : ∀ {p a b earlier later}, Lives (create id name options settings ([], w)) earlier a →
      Botched p a b → Lives b later s → s.terminated.isSet = false := by
    intro p a b earlier later ha hab hb
    have hvacant := hab.vacant (hab.answerable (ha.answerable_or_vacant hcreated))
    rw [(hb.steady_of_vacant hvacant).terminated, hab.unset]
  have hset : (∀ e ∈ life, ¬ e.IsBotched) → s.terminated.isSet = true := by
    intro hnone
    rcases hlives.answerable hcreated with hs | ⟨e, he, -, hbotched⟩
    · exact hs.signalled hlife hworker
    · exact absurd hbotched (hnone e he)
  refine ⟨⟨?_, hset⟩, ⟨?_, ?_⟩, ?_⟩
  · intro hend e he hbotched
    obtain ⟨earlier, later, rfl⟩ := List.append_of_mem he
    obtain ⟨ha, -, hb⟩ := hlives.split
    simp [hunset ha hbotched hb] at hend
  · rintro hend ⟨p, a, b, earlier, later, ha, hab, hb⟩
    simp [hunset ha hab hb] at hend
  · refine fun hnone => hset fun e he hbotched => hnone ?_
    obtain ⟨earlier, later, rfl⟩ := List.append_of_mem he
    obtain ⟨ha, -, hb⟩ := hlives.split
    exact ⟨_, _, _, earlier, later, ha, hbotched, hb⟩
  · intro later t ht
    have hsteady := ht.steady_of_vacant ⟨.inl hlife, hworker⟩
    have hclosed : t.life = .closed := by
      rcases hsteady.life with hl | ⟨-, hl⟩
      · rwa [hl]
      · exact hl
    refine ⟨hsteady.terminated, fun p => ?_⟩
    rw [close_closed p.logged hclosed, hsteady.terminated]

section Stillborn

open Rehearsal

/-- A backend that panics when it is first connected. -/
def hasty : Cast where
  backend := { connects := [.panic {}] }

def unborn : Session (Log × Scene) :=
  .create "s1" "Mock" {} { threaded := false } ([], hasty.scene {} [])

def stillborn : Session (Log × Scene) := (perform hasty.parties.logged .start unborn).2

theorem signalled_iff_not_botched_stillborn :
    ∃ life, Lives unborn life stillborn ∧ stillborn.life = .closed ∧
      stillborn.mailbox.receiving = false ∧ stillborn.terminated.isSet = false ∧
      (∃ e ∈ life, e.IsBotched) ∧
      ∀ later t, Lives stillborn later t →
        ∀ p : Parties Scene, close p.logged t = (.error .hang, t) := by
  have hrun : perform hasty.parties.logged .start unborn = (.error (.panic {}), stillborn) :=
    rfl
  have hlives := Lives.single (.call (fun _ => rfl) hrun) (map_ne_hang (by simp))
  have hlife : stillborn.life = .closed := by decide +kernel
  have hworker : stillborn.mailbox.receiving = false := by decide +kernel
  have hunset : stillborn.terminated.isSet = false := by decide +kernel
  obtain ⟨hiff, -, hafter⟩ := signalled_iff_not_botched hlives hlife hworker
  refine ⟨_, hlives, hlife, hworker, hunset, ?_, fun later t ht p => ?_⟩
  · refine Classical.byContradiction fun hnone => ?_
    have hset := hiff.mpr fun e he hbotched => hnone ⟨e, he, hbotched⟩
    simp [hset] at hunset
  · rw [(hafter later t ht).2 p, hunset]
    rfl

end Stillborn
end Session
end DatabaseSession
