import DatabaseSession.Proofs.Handling
import DatabaseSession.Proofs.Jobs

namespace DatabaseSession

open Course Run Session

variable {ω α : Type} {p : Parties ω} {s s' : Session (Log × ω)}

namespace Task

/-- Once the task is through, it is asked for its statistics. If it panics instead, the session
keeps those that it has. -/
inductive Accounted (p : Parties ω) (s : Session ω) : Except Stop Unit → Session ω → Prop where
  | reported {r : RunStats} {s' : Session ω} (hreport : report p s = (.ok r, s')) :
      Accounted p s (.ok ()) { s' with stats := LastRunStats.ofRun r, statsHeld := false }
  | panicked {q : Panic} {s' : Session ω} (hreport : report p s = (.error (.panic q), s')) :
      Accounted p s (.error (.panic q)) { s' with statsHeld := false }

theorem account_accounted {x : Except Stop Unit} {s s' : Session ω} (hrun : account p s = (x, s'))
    (hx : x ≠ .error .hang) : Accounted p s x s' := by
  have hstops := stops_report p s
  rw [account, bind_apply, onPanic] at hrun
  rcases hreport : report p s with ⟨(e | q | _) | r, s₁⟩ <;> rw [hreport] at hrun hstops <;>
    cases hrun
  · exact absurd rfl (hstops _ rfl e)
  · exact .panicked hreport
  · exact absurd rfl hx
  · exact .reported hreport

/-- The stages of a task's run. The observers are told that it starts, it is run or cancelled, its
statistics are taken, and unless they could not be, the observers are told that it is finished. -/
inductive Staged (p : Parties ω) (t : Task) (s : Session ω) (x : Except Stop Unit)
    (s' : Session ω) : Prop where
  | intro {s₁ s₂ s₃ : Session ω}
      (hstarted : announce p .started t.requestId (takeUp t s) = (.ok (), s₁))
      (hdone : undertake p (marked t s) (holdStats s₁) = (.ok (), s₂))
      (haccount : Accounted p s₂ x s₃)
      (hfinished : x = .ok () ∧ announce p .finished t.requestId s₃ = (.ok (), s') ∨
        x ≠ .ok () ∧ s' = s₃)

theorem perform_staged {t : Task} {x : Except Stop Unit} {s s' : Session ω}
    (hrun : perform p t s = (x, s')) (hx : x ≠ .error .hang) : Staged p t s x s' := by
  have hannounce : ∀ phase, Stops (· = .hang) (announce p phase t.requestId) := fun phase =>
    stops_forM _ fun _ => stops_shielded _
  rw [perform_eq, bind_apply] at hrun
  rcases hstarted : announce p .started t.requestId (takeUp t s) with ⟨stop | ⟨⟩, s₁⟩ <;>
    rw [hstarted] at hrun
  · cases hrun
    obtain rfl : stop = .hang := hannounce _ _ stop (by rw [hstarted])
    exact absurd rfl hx
  dsimp only at hrun
  rw [bind_apply, modify_apply] at hrun
  dsimp only at hrun
  rw [bind_apply] at hrun
  rcases hdone : undertake p (marked t s) (holdStats s₁) with ⟨stop | ⟨⟩, s₂⟩ <;>
    rw [hdone] at hrun
  · cases hrun
    obtain rfl : stop = .hang := stops_undertake p _ _ stop (by rw [hdone])
    exact absurd rfl hx
  dsimp only at hrun
  rw [bind_apply] at hrun
  rcases haccount : account p s₂ with ⟨stop | ⟨⟩, s₃⟩ <;> rw [haccount] at hrun
  · cases hrun
    exact .intro hstarted hdone (account_accounted haccount hx) (.inr ⟨by simp, rfl⟩)
  · dsimp only at hrun
    rcases x with stop | ⟨⟩
    · obtain rfl : stop = .hang := hannounce _ _ stop (by rw [hrun])
      exact absurd rfl hx
    · exact .intro hstarted hdone (account_accounted haccount (by simp)) (.inl ⟨rfl, hrun⟩)

end Task

/-- The course of what leaves the statistics of the session alone. -/
def Course.sameStats (ω : Type) : Course (Log × ω) :=
  .ofGrowth (fun s s' => s'.stats = s.stats ∧ s'.statsHeld = s.statsHeld) (fun _ => ⟨rfl, rfl⟩)
    fun h h' => ⟨h'.1.trans h.1, h'.2.trans h.2⟩

theorem Course.sameStats_permits (p : Parties ω) (d : Duty) : (sameStats ω).Permits p d :=
  permits_of fun ht =>
    have hsame := And.intro ht.stats ht.statsHeld
    allows_of_panics hsame hsame

theorem Run.sameStats_of_apart {m : Run (Log × ω) α} (h : Follows (apart ω) m) :
    Follows (sameStats ω) m := by
  intro s
  have hs := h s
  rcases hr : m s with ⟨(_ | _ | _) | _, s'⟩ <;> rw [hr] at hs <;> exact ⟨hs.stats, hs.statsHeld⟩

namespace Link

theorem sameStats_covers (p : Parties ω) (kind : Attempt → Bool) :
    Covers (sameStats ω) p kind :=
  ⟨fun d _ => sameStats_permits p d, fun _ => ⟨rfl, rfl⟩⟩

theorem sameStats_publish (p : Parties ω) : Follows (sameStats ω) (publish p.logged) :=
  follows_publish (fun d _ => sameStats_permits p d) fun _ _ => ⟨rfl, rfl⟩

theorem sameStats_restore (p : Parties ω) : Follows (sameStats ω) (restore p.logged) :=
  follows_restore (sameStats_covers p Attempt.isAutomatic) rfl

end Link

namespace Task

theorem sameStats_playErrand (p : Parties ω) (key : Nat) (e : Errand ω) (s : Session (Log × ω)) :
    (sameStats ω).Goes s (playErrand p.logged (e.logged key s.log) s).2 := by
  -- what an errand does next may depend on every answer it got, so the induction is on the errand
  induction e generalizing s with
  | done x w => exact ⟨rfl, rfl⟩
  | ask thread call w next ih =>
    have hanswer := Inner.ofAnswer (p := p) thread call { s with outside := (s.log, w) }
    simp only [Errand.logged, playErrand]
    rcases ha : answer p.logged thread call { s with outside := (s.log, w) } with ⟨_ | a, s₁⟩ <;>
      rw [ha] at hanswer
    · exact ⟨hanswer.stats, hanswer.statsHeld⟩
    · have hrest := ih a s₁.outside.2 (s₁.note (.asked thread call a))
      rw [log_note, note, playErrand_outside] at hrest
      exact ⟨hrest.1.trans hanswer.stats, hrest.2.trans hanswer.statsHeld⟩
  | reconnect w next ih =>
    have hback := Link.sameStats_restore p { s with outside := (s.log, w) }
    simp only [Errand.logged, playErrand]
    rcases hr : Link.restore p.logged { s with outside := (s.log, w) } with
      ⟨(_ | _ | _) | b, s₁⟩ <;> rw [hr] at hback
    case ok => exact (sameStats ω).trans hback (ih b s₁.outside.2 s₁)
    all_goals exact hback

theorem sameStats_errand (p : Parties ω) (key : Nat) :
    Follows (sameStats ω) (runErrand p.logged key) := by
  intro s
  have hrun := sameStats_playErrand p key ((p.custom key).execute (context s) s.outside.2)
    (s.note (.called (.errand key)))
  rw [log_note, note, playErrand_outside] at hrun
  exact allows_of_panics hrun hrun

theorem sameStats_undertakes (p : Parties ω) : Undertakes (sameStats ω) p where
  reading d _ := sameStats_permits p d
  streams _ := sameStats_of_apart (follows_bind (apart_update _) fun _ => apart_emit _ _ _ _)
  updates _ _ _ := ⟨rfl, rfl⟩
  endsWell _ _ := sameStats_of_apart (apart_emit _ _ _ _)
  restores _ hgoes := (Link.sameStats_restore p _).after hgoes
  schema d _ := sameStats_permits p d
  endsInError e := sameStats_of_apart (apart_endInError e)
  restarts _ := ⟨rfl, rfl⟩
  emits _ _ _ _ := sameStats_of_apart (apart_emit _ _ _ _)
  endsCancelled := sameStats_of_apart apart_endCancelled
  errand _ := sameStats_errand p _ _
  errands d _ := sameStats_permits p d
  stuck _ := ⟨rfl, rfl⟩

theorem sameStats_announce (p : Parties ω) (phase : Milestone) (requestId : Option String) :
    Follows (sameStats ω) (announce p.logged phase requestId) :=
  follows_announce fun _ => sameStats_permits p _

theorem perform_frees {t : Task} {x : Except Stop Unit} (hrun : perform p.logged t s = (x, s'))
    (hx : x ≠ .error .hang) : s'.statsHeld = false := by
  obtain ⟨-, -, haccount, ⟨-, hfinished⟩ | ⟨-, rfl⟩⟩ := perform_staged hrun hx
  · rw [((sameStats_announce p _ _).goes hfinished (by simp)).2]
    cases haccount <;> rfl
  · cases haccount <;> rfl

end Task

namespace Session

theorem sameStats_tends : Tends (sameStats ω) p where
  inner h := ⟨h.stats, h.statsHeld⟩
  teardown d _ := sameStats_permits p d
  cancels := sameStats_of_apart Task.apart_cancel
  panics _ := ⟨rfl, rfl⟩
  stuck _ := ⟨rfl, rfl⟩
  stops h := h

theorem sameStats_carryOut {k : Purpose} (hk : ∀ t, k ≠ .task t) :
    Follows (sameStats ω) (k.carryOut p.logged) := by
  have hcovers := Link.sameStats_covers p fun _ => true
  cases k with
  | opening =>
    exact follows_bind (Link.follows_connect hcovers rfl) fun _ => Link.sameStats_publish p
  | renewal options =>
    refine follows_bind (follows_modify fun s => ?_) fun _ =>
      follows_bind (Link.follows_reconnect hcovers rfl) fun _ => Link.sameStats_publish p
    cases options <;> exact ⟨rfl, rfl⟩
  | task t => exact absurd rfl (hk t)
  | probe =>
    exact Service.follows_handleProbe sameStats_tends (sameStats_permits p .ping)
      fun _ hgoes => (Link.sameStats_restore p _).after hgoes
  | other => exact follows_pure ()

variable {k : Purpose} {a : Session (Log × ω)} {x : Except Stop Unit}

theorem Deed.runs {t : Task} (h : Deed p s (.task t) a x s') (hx : x ≠ .error .hang) :
    ∃ y b, Task.perform p.logged t a = (y, b) ∧ y ≠ .error .hang ∧ s'.stats = b.stats ∧
      s'.statsHeld = false := by
  obtain ⟨y, b, hrun, hy, hafter⟩ := h.carriesOut hx
  obtain ⟨hstats, hheld⟩ := hafter sameStats_tends
  exact ⟨y, b, hrun, hy, hstats, hheld.trans (Task.perform_frees hrun hy)⟩

theorem Deed.sameStats (h : Deed p s k a x s') (hx : x ≠ .error .hang) (hk : ∀ t, k ≠ .task t) :
    (Course.sameStats ω).Goes s s' := h.goes hx sameStats_tends (sameStats_carryOut hk)

/-- Whoever asks for the statistics while no task is run is told them. -/
theorem Lives.status_eq {id name : String} {options : Options} {settings : Settings} {w : ω}
    {life : List (Episode ω)}
    (h : Lives (create id name options settings (([] : Log), w)) life s) (thread : Thread) :
    s.status thread = .ok s.stats := by
  have hfree : s.statsHeld = false := by
    induction h with
    | refl => rfl
    | @step p k x life s a s' _ hdeed hx ih =>
      by_cases hk : ∃ t, k = .task t
      · obtain ⟨t, rfl⟩ := hk
        obtain ⟨-, -, -, -, -, hfree⟩ := hdeed.runs hx
        exact hfree
      · exact (hdeed.sameStats hx fun t ht => hk ⟨t, ht⟩).2.trans ih
  rw [status, if_neg (by simp [hfree])]

end Session
end DatabaseSession
