import DatabaseSession.Proofs.Growth

namespace DatabaseSession

namespace Duty

/-- Neither for a connection nor about a fresh one. -/
def isBeside (d : Duty) : Bool := !d.isConnecting (fun _ => true) && !d.isPublishing

/-- Neither that nor for a statement. -/
def isApart (d : Duty) : Bool := d.isBeside && !d.isReading

theorem isBeside_of_isApart {d : Duty} (h : d.isApart = true) : d.isBeside = true := by
  rw [isApart, Bool.and_eq_true] at h
  exact h.1

theorem isBeside_of_isReading {d : Duty} (h : d.isReading = true) : d.isBeside = true := by
  cases d <;> first | rfl | cases h

theorem isApart_of_isSchema {d : Duty} (h : d.isSchema = true) : d.isApart = true := by
  cases d <;> first | rfl | cases h

theorem isApart_of_isErrand {d : Duty} (h : d.isErrand = true) : d.isApart = true := by
  cases d <;> first | rfl | cases h

end Duty

open Course Run Session

variable {ω α : Type} {P : Duty → Bool} {p : Parties ω} {s s' : Session (Log × ω)}

namespace Session

/-- A change in which only such duties are called on, and after which nothing else is known about
the connection. -/
structure Beside (P : Duty → Bool) (s s' : Session (Log × ω)) : Prop where
  published : s'.published = s.published
  log : ∃ new, s'.log = s.log ++ new ∧ ∀ d ∈ Log.calls new, P d = true

namespace Beside

theorem of_eq (hpublished : s'.published = s.published) (hout : s'.outside = s.outside) :
    Beside P s s' :=
  ⟨hpublished, [], by simp [Session.log, hout], by simp⟩

theorem refl (s : Session (Log × ω)) : Beside P s s := .of_eq rfl rfl

theorem trans {a b c : Session (Log × ω)} (h : Beside P a b) (h' : Beside P b c) :
    Beside P a c := by
  obtain ⟨new, hlog, hd⟩ := h.log
  obtain ⟨new', hlog', hd'⟩ := h'.log
  refine ⟨h'.published.trans h.published, new ++ new', by rw [hlog', hlog, List.append_assoc], ?_⟩
  intro d hmem
  rw [Log.calls_append] at hmem
  exact (List.mem_append.mp hmem).elim (hd d) (hd' d)

theorem mono {Q : Duty → Bool} (h : Beside P s s') (hPQ : ∀ {d}, P d = true → Q d = true) :
    Beside Q s s' := by
  obtain ⟨new, hlog, hd⟩ := h.log
  exact ⟨h.published, new, hlog, fun d hmem => hPQ (hd d hmem)⟩

theorem ofTurned {d : Duty} {x : Except Stop Unit} {new : Log} (h : Turned d x new s s')
    (hd : P d = true) : Beside P s s' :=
  ⟨h.published, new, h.log, by rw [h.calls]; simpa using hd⟩

theorem ofInterlude {asides : Log} (h : Interlude asides s s') : Beside P s s' :=
  ⟨h.published, asides, h.log, by simp [Log.calls_asides h.aside]⟩

theorem ofNote (s : Session (Log × ω)) {e : Entry} (he : ∀ d ∈ Log.calls [e], P d = true) :
    Beside P s (s.note e) :=
  ⟨rfl, [e], rfl, he⟩

end Beside

/-- A change apart from the connection and from the tasks that are run: no statement is, and the
statistics stay those of the last task. -/
structure Apart (s s' : Session (Log × ω)) : Prop extends Beside Duty.isApart s s' where
  stats : s'.stats = s.stats
  statsHeld : s'.statsHeld = s.statsHeld

namespace Apart

theorem of_eq (hpublished : s'.published = s.published) (hstats : s'.stats = s.stats)
    (hheld : s'.statsHeld = s.statsHeld) (hout : s'.outside = s.outside) : Apart s s' :=
  ⟨.of_eq hpublished hout, hstats, hheld⟩

theorem refl (s : Session (Log × ω)) : Apart s s := .of_eq rfl rfl rfl rfl

theorem trans {a b c : Session (Log × ω)} (h : Apart a b) (h' : Apart b c) : Apart a c :=
  ⟨h.toBeside.trans h'.toBeside, h'.stats.trans h.stats, h'.statsHeld.trans h.statsHeld⟩

end Apart
end Session

def Course.beside (ω : Type) (P : Duty → Bool) : Course (Log × ω) :=
  .ofGrowth (Beside P) .refl .trans

theorem Course.beside_permits {d : Duty} (hd : P d = true) : (beside ω P).Permits p d := by
  refine permits_of fun {x new s s'} ht => ?_
  have h : Beside P s s' := .ofTurned ht hd
  exact allows_of_panics h h

/-- The course of what is done apart from the connection and the tasks. -/
def Course.apart (ω : Type) : Course (Log × ω) := .ofGrowth Apart .refl .trans

theorem Course.apart_permits {d : Duty} (hd : d.isApart = true) : (apart ω).Permits p d := by
  refine permits_of fun {x new s s'} ht => ?_
  have h : Apart s s' := ⟨.ofTurned ht hd, ht.stats, ht.statsHeld⟩
  exact allows_of_panics h h

theorem Run.beside_of_apart (hP : ∀ {d : Duty}, d.isApart = true → P d = true)
    {m : Run (Log × ω) α} (h : Follows (apart ω) m) : Follows (beside ω P) m := by
  intro s
  have hs := h s
  rcases hr : m s with ⟨(_ | _ | _) | _, s'⟩ <;> rw [hr] at hs <;> exact hs.toBeside.mono hP

namespace Task

theorem apart_hand (sink : Sink) (event : Event) :
    Follows (apart ω) (hand p.logged sink event) := by
  cases sink with
  | discard => exact follows_pure ()
  | channel inbox =>
    refine follows_modify fun s => ⟨⟨rfl, _, rfl, ?_⟩, rfl, rfl⟩
    simp [Duty.isApart, Duty.isBeside, Duty.isConnecting, Duty.isPublishing, Duty.isReading]
  | callback key => exact follows_always (apart_permits rfl _)

theorem apart_emit (state : Progress) (message : Option String) (data : Option EventData)
    (error : Option ErrorReport) : Follows (apart ω) (emit p.logged state message data error) := by
  intro s
  cases hterm : s.active.courier.terminal with
  | some st =>
    rw [emit_closed _ _ _ _ _ s (by simp [hterm])]
    exact Apart.refl s
  | none =>
    rw [emit_open _ _ _ _ _ s hterm]
    exact (apart_hand _ _ _).after (.of_eq rfl rfl rfl rfl)

theorem apart_update (f : Task → Task) : Follows (apart ω) (update f) :=
  follows_modify fun _ => .of_eq rfl rfl rfl rfl

theorem apart_endInError (e : Error) : Follows (apart ω) (endInError p.logged e) := by
  refine follows_bind follows_get fun s => ?_
  split
  · exact follows_pure ()
  · exact follows_bind (apart_update _) fun _ => apart_emit _ _ _ _

theorem apart_endCancelled : Follows (apart ω) (endCancelled p.logged) :=
  follows_bind (apart_update _) fun _ => apart_emit _ _ _ _

theorem apart_cancel : Follows (apart ω) (cancel p.logged) := by
  refine follows_bind follows_get fun s => ?_
  cases s.active.work with
  | query _ | schema _ => exact apart_endCancelled
  | custom key => exact follows_always (apart_permits (d := .cancelErrand key) rfl _)

/-- A stretch of a task's run: from time to time its connection is restored, and whatever else is
done is done beside that. -/
inductive Stretch (P : Duty → Bool) (p : Parties ω) (s : Session (Log × ω)) :
    Session (Log × ω) → Prop where
  | refl : Stretch P p s s
  | beside {s₁ s₂ : Session (Log × ω)} (h : Stretch P p s s₁) (hbeside : Beside P s₁ s₂) :
      Stretch P p s s₂
  | restored {s₁ s₂ : Session (Log × ω)} {x : Except Stop Bool} (h : Stretch P p s s₁)
      (hrun : Link.restore p.logged s₁ = (x, s₂)) (hx : x ≠ .error .hang) : Stretch P p s s₂

theorem Stretch.ofBeside (h : Beside P s s') : Stretch P p s s' := .beside .refl h

theorem Stretch.trans {a b c : Session (Log × ω)} (h : Stretch P p a b) (h' : Stretch P p b c) :
    Stretch P p a c := by
  induction h' with
  | refl => exact h
  | beside _ hbeside ih => exact .beside ih hbeside
  | restored _ hrun hx ih => exact .restored ih hrun hx

end Task

/-- The course of a task. Nothing is said about one that does not come back. -/
def Course.stretch (P : Duty → Bool) (p : Parties ω) : Course (Log × ω) :=
  .plain (Task.Stretch P p) (fun _ _ => True) (fun _ => .refl) .trans fun _ _ => trivial

namespace Task

theorem stretch_of_beside {m : Run (Log × ω) α} (h : Follows (beside ω P) m) :
    Follows (stretch P p) m := by
  intro s
  have hs := h s
  rcases hr : m s with ⟨(_ | _ | _) | _, s'⟩ <;> rw [hr] at hs
  case error.hang => trivial
  all_goals exact .ofBeside hs

theorem stretch_restore : Follows (stretch P p) (Link.restore p.logged) := by
  intro s
  rcases hrun : Link.restore p.logged s with ⟨(_ | _ | _) | _, s'⟩
  case error.hang => trivial
  all_goals exact .restored .refl hrun (by simp)

theorem stretch_playErrand (key : Nat) (e : Errand ω) (s : Session (Log × ω)) :
    (stretch P p).Allows (playErrand p.logged (e.logged key s.log) s).1 s
      (playErrand p.logged (e.logged key s.log) s).2 := by
  -- what an errand does next may depend on every answer it got, so the induction is on the errand
  induction e generalizing s with
  | done x w =>
    have hout : Beside P s { s with outside := (s.log, w) } := .ofInterlude (.ofOutside s w)
    have hback := hout.trans (.ofNote _ (e := .returned (.errand key) x) (by simp))
    exact allows_of_panics (Stretch.ofBeside hback) trivial
  | ask thread call w next ih =>
    have hout : Beside P s { s with outside := (s.log, w) } := .ofInterlude (.ofOutside s w)
    simp only [Errand.logged, playErrand]
    rcases ha : answer p.logged thread call { s with outside := (s.log, w) } with ⟨_ | a, s₁⟩
    · trivial
    · obtain ⟨asides, hi⟩ := answer_interlude p _ _ _ _ _ ha
      have hrest := ih a s₁.outside.2 (s₁.note (.asked thread call a))
      rw [log_note, note, playErrand_outside] at hrest
      exact hrest.after (Stretch.ofBeside (hout.trans (.ofInterlude hi)))
  | reconnect w next ih =>
    have hout : (stretch P p).Goes s { s with outside := (s.log, w) } :=
      Stretch.ofBeside (.ofInterlude (.ofOutside s w))
    have hback := stretch_restore (P := P) (p := p) { s with outside := (s.log, w) }
    simp only [Errand.logged, playErrand]
    rcases hr : Link.restore p.logged { s with outside := (s.log, w) } with
      ⟨(_ | _ | _) | b, s₁⟩ <;> rw [hr] at hback
    case error.hang => trivial
    case ok => exact (ih b s₁.outside.2 s₁).after ((stretch P p).trans hout hback)
    all_goals exact (stretch P p).trans hout hback

theorem stretch_errand (hP : ∀ {d : Duty}, d.isApart = true → P d = true) (key : Nat) :
    Follows (stretch P p) (runErrand p.logged key) := by
  intro s
  have hcalled : Beside P s (s.note (.called (.errand key))) :=
    .ofNote s (by simpa using hP rfl)
  have hrun := stretch_playErrand (P := P) (p := p) key
    ((p.custom key).execute (context s) s.outside.2) (s.note (.called (.errand key)))
  rw [log_note, note, playErrand_outside] at hrun
  exact hrun.after (Stretch.ofBeside hcalled)

theorem beside_reads (p : Parties ω) : Query.Covers (beside ω Duty.isBeside) p where
  reading _ hd := beside_permits (Duty.isBeside_of_isReading hd)
  streams _ := beside_of_apart Duty.isBeside_of_isApart
    (follows_bind (apart_update _) fun _ => apart_emit _ _ _ _)
  endsWell _ _ := beside_of_apart Duty.isBeside_of_isApart (apart_emit _ _ _ _)
  updates _ _ _ := Beside.of_eq rfl rfl

theorem stretch_performs (p : Parties ω) : Performs (stretch Duty.isBeside p) p :=
  have hreads := beside_reads p
  have hapart : ∀ {α : Type} {m : Run (Log × ω) α}, Follows (apart ω) m →
      Follows (stretch Duty.isBeside p) m := fun hm =>
    stretch_of_beside (beside_of_apart Duty.isBeside_of_isApart hm)
  { reading := fun d hd _ m => stretch_of_beside (hreads.reading d hd m)
    streams := fun chunk => stretch_of_beside (hreads.streams chunk)
    endsWell := fun message data => stretch_of_beside (hreads.endsWell message data)
    updates := fun s t ht => .ofBeside (hreads.updates s t ht)
    restores := fun _ hgoes => (stretch_restore _).after hgoes
    schema := fun _ hd _ m => hapart (apart_permits (Duty.isApart_of_isSchema hd) m)
    endsInError := fun e => hapart (apart_endInError e)
    restarts := fun _ => .ofBeside (.of_eq rfl rfl)
    emits := fun _ _ _ _ => hapart (apart_emit _ _ _ _)
    endsCancelled := hapart apart_endCancelled
    errand := fun _ => stretch_errand Duty.isBeside_of_isApart _ _
    errands := fun _ hd _ m => hapart (apart_permits (Duty.isApart_of_isErrand hd) m)
    accounts := fun _ _ _ => .ofBeside (.of_eq rfl rfl)
    stuck := fun _ => trivial
    stops := fun _ => trivial }

/-- The run of a task as a whole. -/
theorem perform_stretch {t : Task} {x : Except Stop Unit}
    (hrun : perform p.logged t s = (x, s')) (hx : x ≠ .error .hang) :
    Stretch Duty.isBeside p s s' := by
  have htake : Stretch Duty.isBeside p s (takeUp t s) := .beside .refl (.of_eq rfl rfl)
  have hperform := (stretch_performs p).follows_perform (t := t)
    (fun i phase _ m => stretch_of_beside (beside_permits rfl m)) s
  rw [hrun] at hperform
  exact htake.trans (hperform.goes hx)

end Task
end DatabaseSession
