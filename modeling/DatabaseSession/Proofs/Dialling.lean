import DatabaseSession.Proofs.Jobs
import DatabaseSession.Proofs.Reconnects

namespace DatabaseSession

open Course Run Session

variable {ω α : Type} {p : Parties ω} {s s' : Session (Log × ω)}

namespace Duty

/-- Part of a connect attempt, of whatever kind. -/
def isDialling (d : Duty) : Bool := d.isConnecting fun _ => true

def isConnect : Duty → Bool
  | .connect _ => true
  | _ => false

/-- The attempt that an observer is told of. -/
def toldOf : Duty → Option Attempt
  | .notice _ n => some n.attempt
  | _ => none

def IsToldOf (kind : Attempt → Bool) (d : Duty) : Prop := ∀ attempt ∈ d.toldOf, kind attempt = true

theorem isToldOf_of_notices {kind : Attempt → Bool} {d : Duty}
    (h : ∀ i n, d = .notice i n → kind n.attempt = true) : d.IsToldOf kind := by
  intro attempt hattempt
  cases d with
  | notice i n =>
    cases hattempt
    exact h i n rfl
  | _ => cases hattempt

theorem isToldOf_of_isConnecting {kind : Attempt → Bool} {d : Duty}
    (h : d.isConnecting kind = true) : d.IsToldOf kind := by
  refine isToldOf_of_notices ?_
  rintro i n rfl
  exact h

theorem isToldOf_of_not_isDialling {kind : Attempt → Bool} {d : Duty} (h : d.isDialling = false) :
    d.IsToldOf kind := by
  refine isToldOf_of_notices ?_
  rintro i n rfl
  cases h

theorem isToldOf_of_isTaskwork {d : Duty} (h : d.isTaskwork = true) :
    d.IsToldOf Attempt.isAutomatic := by
  refine isToldOf_of_notices ?_
  rintro i n rfl
  simpa [isTaskwork, isConnecting, isReading, isSchema, isErrand] using h

theorem not_isDialling_of_isTeardown {d : Duty} (h : d.isTeardown = true) :
    d.isDialling = false := by
  cases d <;> first | rfl | cases h

theorem not_isDialling_of_isPublishing {d : Duty} (h : d.isPublishing = true) :
    d.isDialling = false := by
  cases d <;> first | rfl | cases h

theorem not_isDialling_of_task {d : Duty} (h : (d.isReading || d.isSchema || d.isErrand) = true) :
    d.isDialling = false := by
  cases d <;> first | rfl | cases h

theorem not_isConnect_of_not_isDialling {d : Duty} (h : d.isDialling = false) :
    d.isConnect = false := by
  cases d <;> first | rfl | cases h

theorem isTelltale_of_isStatement {d : Duty} (h : d.isStatement = true) : d.isTelltale = true := by
  cases d <;> first | rfl | cases h

end Duty

namespace Purpose

/-- The connect attempts that are made for a purpose. -/
def attempts : Purpose → Attempt → Bool
  | .opening, attempt => attempt = .opening
  | .renewal _, attempt => attempt = .reconnect .user
  | .task _, attempt | .probe, attempt => attempt.isAutomatic
  | .other, _ => false

def isConnecting : Purpose → Bool
  | .opening | .renewal _ => true
  | _ => false

def isCustom : Purpose → Bool
  | .task t => !t.work.isBuiltIn
  | _ => false

/-- Something may be done towards a connection, depending on whether a lost one may be restored. -/
def mayConnect (auto : Bool) : Purpose → Bool
  | .opening | .renewal _ => true
  | .task _ | .probe => auto
  | .other => false

end Purpose

/-- At the end of the log the connection is being restored that was reported lost to a statement or
to a ping. -/
def Log.Restoring (log : Log) : Prop :=
  ∃ before d e after, log = before ++ .returned d (.error (.error e)) :: after ∧
    d.isTelltale = true ∧ e.losesConnection = true ∧
    ∀ d ∈ Log.calls after, d.isConnecting Attempt.isAutomatic = true

namespace Session

/-- A change in which such duties only are called on. What is settled for life stays, and a session
that was started does not become one that never was. -/
structure Lasts (P : Duty → Prop) (s s' : Session (Log × ω)) : Prop where
  log : ∃ new, s'.log = s.log ++ new ∧ ∀ d ∈ Log.calls new, P d
  autoReconnect : s'.link.options.autoReconnect = s.link.options.autoReconnect
  begun : s'.life = .idle → s.life = .idle

namespace Lasts

variable {P : Duty → Prop}

theorem ofInner (h : Inner s s') : Lasts P s s' := by
  obtain ⟨new, hlog, hcalls⟩ := h.log
  exact ⟨⟨new, hlog, by simp [hcalls]⟩, h.autoReconnect, h.begun⟩

theorem growth (p : Parties ω) (P : Duty → Prop) : Growth p P (Lasts (ω := ω) P) where
  trans h h' := ⟨(calling ω P).trans h.log h'.log, h'.autoReconnect.trans h.autoReconnect,
    h.begun ∘ h'.begun⟩
  unmoved h := ⟨⟨[], by simp [Session.log, h.outside], by simp⟩, h.autoReconnect,
    fun hl => h.life.symm.trans hl⟩
  elsewhere s w := .ofInner (.ofInterlude (.ofOutside s w))
  called _ _ hd := ⟨⟨[_], rfl, by simpa using hd⟩, rfl, fun hl => hl⟩
  returned _ _ _ := ⟨⟨[_], rfl, by simp⟩, rfl, fun hl => hl⟩
  asked ha := by
    obtain ⟨asides, hi⟩ := answer_interlude p _ _ _ _ _ ha
    exact .ofInner (.ofInterlude hi)
  unanswered ha := .ofInner (.ofInterlude (unanswered_interlude p _ _ _ _ ha))

theorem emits (p : Parties ω) (hP : ∀ {d : Duty}, d.isDialling = false → P d) :
    Emits p (Lasts (ω := ω) P) :=
  (growth p P).emits (fun _ _ => .ofInner (.of_eq rfl)) fun _ _ => hP rfl

theorem tends (p : Parties ω) (hP : ∀ {d : Duty}, d.isDialling = false → P d) :
    Tends (growth p P).course p :=
  (growth p P).tends .ofInner (emits p hP) (fun _ hd => hP (Duty.not_isDialling_of_isTeardown hd))
    fun _ => hP rfl

theorem publishes (p : Parties ω) (hP : ∀ {d : Duty}, d.isDialling = false → P d) :
    Follows (growth p P).course (Link.publish p.logged) :=
  Link.grows_publish (growth p P) fun _ hd => hP (Duty.not_isDialling_of_isPublishing hd)

end Lasts

abbrev Undialled (s s' : Session (Log × ω)) : Prop := Lasts (fun d => d.isDialling = false) s s'

end Session

namespace Run

variable {β : Type}

def ConnectsAtMost (n : Nat) (m : Run (Log × ω) α) : Prop :=
  ∀ s, ∃ new, (m s).2.log = s.log ++ new ∧ (Log.calls new).countP Duty.isConnect ≤ n

theorem connectsAtMost_of_calling {m : Run (Log × ω) α}
    (h : Follows (calling ω fun d => d.isConnect = false) m) : ConnectsAtMost 0 m := by
  intro s
  have hgrown : ∃ new, (m s).2.log = s.log ++ new ∧ ∀ d ∈ Log.calls new, d.isConnect = false := by
    have hs := h s
    rcases hr : m s with ⟨(_ | _ | _) | _, s'⟩ <;> rw [hr] at hs <;> exact hs
  obtain ⟨new, hlog, hcalls⟩ := hgrown
  exact ⟨new, hlog, Nat.le_of_eq (List.countP_eq_zero.mpr fun d hd => by simp [hcalls d hd])⟩

theorem connectsAtMost_party (p : Parties ω) (d : Duty) (m : Play ω α) :
    ConnectsAtMost 1 (party p.logged (m.logged d)) := by
  intro s
  obtain ⟨new, hturned⟩ := party_logged p d m s
  refine ⟨new, hturned.log, ?_⟩
  rw [hturned.calls]
  exact List.countP_le_length

theorem connectsAtMost_bind {n k : Nat} {m : Run (Log × ω) α} {f : α → Run (Log × ω) β}
    (hm : ConnectsAtMost n m) (hf : ∀ a, ConnectsAtMost k (f a)) :
    ConnectsAtMost (n + k) (m >>= f) := by
  intro s
  obtain ⟨new, hlog, hcount⟩ := hm s
  rw [bind_apply]
  rcases hms : m s with ⟨stop | a, s₁⟩ <;> rw [hms] at hlog
  · exact ⟨new, hlog, by omega⟩
  · obtain ⟨new', hlog', hcount'⟩ := hf a s₁
    refine ⟨new ++ new', by rw [hlog', hlog, List.append_assoc], ?_⟩
    rw [Log.calls_append, List.countP_append]
    omega

theorem connectsAtMost_attempt {n : Nat} {m : Run (Log × ω) α} (hm : ConnectsAtMost n m) :
    ConnectsAtMost n (attempt m) := by
  intro s
  rw [attempt_snd]
  exact hm s

end Run

namespace Link

theorem connectless_permits (p : Parties ω) {d : Duty} (h : d.isConnect = false) :
    (calling ω fun d => d.isConnect = false).Permits p d := calling_permits p h

theorem connectsAtMost_establish (p : Parties ω) : ConnectsAtMost 1 (establish p.logged) := by
  refine connectsAtMost_bind (n := 0) (connectsAtMost_of_calling follows_get) fun s =>
    connectsAtMost_bind (k := 0) (connectsAtMost_party p (.connect s.link.options) _) fun _ =>
      connectsAtMost_of_calling ?_
  exact follows_hooks fun i hook => connectless_permits p (d := .onConnected i) rfl _

theorem connectsAtMost_tryConnect (p : Parties ω) (attempt : Attempt) :
    ConnectsAtMost 1 (tryConnect p.logged attempt) := by
  have hannounce : ∀ n, ConnectsAtMost 0 (announce p.logged n) := fun n =>
    connectsAtMost_of_calling (follows_announce fun i => connectless_permits p rfl)
  refine connectsAtMost_bind (n := 0) (connectsAtMost_of_calling (follows_hooks fun i hook =>
    follows_always (connectless_permits p (d := .onConnect i) rfl _))) fun _ =>
    connectsAtMost_bind (n := 0) (hannounce _) fun _ =>
      connectsAtMost_bind (k := 0) (connectsAtMost_attempt (connectsAtMost_establish p)) fun r => ?_
  cases r with
  | ok _ => exact hannounce _
  | error e =>
    exact connectsAtMost_bind (n := 0) (connectsAtMost_of_calling (follows_hooks fun i hook =>
      follows_always (connectless_permits p (d := .onFailed i e) rfl _))) fun _ =>
      connectsAtMost_bind (n := 0) (hannounce _) fun _ =>
        connectsAtMost_of_calling (follows_raise e)

theorem connectsAtMost_connect (p : Parties ω) : ConnectsAtMost 1 (connect p.logged) :=
  connectsAtMost_bind (n := 0) (connectsAtMost_of_calling follows_ensureHeld) fun _ =>
    connectsAtMost_tryConnect p .opening

theorem connectsAtMost_reconnect (p : Parties ω) : ConnectsAtMost 1 (reconnect p.logged .user) := by
  have honce : ConnectsAtMost 1 (reconnectOnce p.logged .user) :=
    connectsAtMost_bind (n := 0) (connectsAtMost_of_calling
      (follows_always (connectless_permits p (d := .disconnect) rfl _))) fun _ =>
      connectsAtMost_bind (k := 0) (connectsAtMost_tryConnect p _) fun _ =>
        connectsAtMost_of_calling (follows_modify fun _ => ⟨[], by simp [Session.log], by simp⟩)
  exact connectsAtMost_bind (n := 0) (connectsAtMost_of_calling follows_ensureHeld) fun _ =>
    connectsAtMost_bind (n := 0) (connectsAtMost_of_calling follows_get) fun _ => honce

end Link

namespace Link

theorem restore_refused (p : Parties ω) (h : s.link.options.autoReconnect = false) :
    restore p.logged s = (.ok false, s) := by
  unfold restore
  rw [get_bind_apply, h]
  rfl

end Link

namespace Session

/-- The observers are told of the attempts that are made for a purpose, and of no others. -/
theorem told_carryOut (k : Purpose) :
    Follows (Lasts.growth p (Duty.IsToldOf k.attempts)).course (k.carryOut p.logged) := by
  have hgrowth := Lasts.growth p (Duty.IsToldOf k.attempts)
  have htends := Lasts.tends p (P := Duty.IsToldOf k.attempts) Duty.isToldOf_of_not_isDialling
  have hcovers : Link.Covers hgrowth.course p k.attempts :=
    Link.grows_covers hgrowth fun _ => Duty.isToldOf_of_isConnecting
  have hpublish := Lasts.publishes p (P := Duty.IsToldOf k.attempts)
    Duty.isToldOf_of_not_isDialling
  cases k with
  | opening => exact follows_bind (Link.follows_connect hcovers rfl) fun _ => hpublish
  | renewal options =>
    refine follows_bind (htends.follows_inner fun s => ?_) fun _ =>
      follows_bind (Link.follows_reconnect hcovers rfl) fun _ => hpublish
    cases options <;> exact .of_eq rfl
  | task t =>
    refine hgrowth.follows fun s => ?_
    have htake : Lasts (Duty.IsToldOf Attempt.isAutomatic) s (Task.takeUp t s) :=
      .ofInner (.of_eq rfl)
    exact hgrowth.trans htake (Task.grows_perform hgrowth
      (Lasts.emits p Duty.isToldOf_of_not_isDialling) (fun _ => Duty.isToldOf_of_isTaskwork)
      (fun _ _ => Duty.isToldOf_of_not_isDialling rfl) s)
  | probe =>
    exact Service.follows_handleProbe htends
      (hgrowth.permits (Duty.isToldOf_of_not_isDialling rfl)) fun _ hgoes =>
      (Link.follows_restore hcovers rfl _).after hgoes
  | other => exact follows_pure ()

theorem undialled_given (p : Parties ω) :
    Growth p (fun d => d.isDialling = false) fun s s' : Session (Log × ω) =>
      s.link.options.autoReconnect = false → Undialled s s' :=
  (Lasts.growth p _).given fun h hs => h.autoReconnect.trans hs

theorem undialled_restore :
    Follows (undialled_given p).course (Link.restore p.logged) := by
  refine (undialled_given p).follows fun s hs => ?_
  rw [Link.restore_refused p hs]
  exact .ofInner (.refl s)

theorem undialled_emits (p : Parties ω) : Emits p fun s s' : Session (Log × ω) =>
    s.link.options.autoReconnect = false → Undialled s s' :=
  (undialled_given p).emits (fun _ _ _ => .ofInner (.of_eq rfl)) fun _ _ => rfl

theorem undialled_tends (p : Parties ω) : Tends (undialled_given p).course p :=
  (undialled_given p).tends (fun h _ => .ofInner h) (undialled_emits p)
    (fun _ => Duty.not_isDialling_of_isTeardown) fun _ => rfl

theorem undialled_carryOut {k : Purpose} (hk : k.isConnecting = false) :
    Follows (undialled_given p).course (k.carryOut p.logged) := by
  have hgrowth := undialled_given p
  cases k with
  | opening | renewal _ => cases hk
  | task t =>
    have hperforms : Task.Performs hgrowth.course p :=
      Task.performs_of_growth hgrowth (undialled_emits p) (fun _ => Duty.not_isDialling_of_task)
        (fun h => h) (fun h => h) (fun h => h) (fun _ hgoes => (undialled_restore _).after hgoes)
        fun {key s} _ => hgrowth.follows
          (Task.grows_custom hgrowth (hgrowth.grows undialled_restore) key rfl) s
    intro s
    exact (hperforms.follows_perform (t := t) (fun _ _ => hgrowth.permits rfl) s).after
      (fun _ => .ofInner (.of_eq rfl))
  | probe =>
    exact Service.follows_handleProbe (undialled_tends p) (hgrowth.permits rfl) fun _ hgoes =>
      (undialled_restore _).after hgoes
  | other => exact follows_pure ()

/-- The last thing that happened since then is that the backend reported a lost connection to a
statement or to a ping. -/
def LostSince (s s' : Session (Log × ω)) : Prop :=
  ∃ since d e, s'.log = s.log ++ (since ++ [.returned d (.error (.error e))]) ∧
    d.isTelltale = true ∧ e.losesConnection = true

/-- Whatever is done towards a connection directly follows a lost one that was reported since. -/
def Recovers (s s' : Session (Log × ω)) : Prop :=
  ∃ new, s'.log = s.log ++ new ∧ ∀ found d rest, new = found ++ .called d :: rest →
    d.isDialling = true → Log.Restoring found

end Session

theorem Log.append_eq_split {a b before after : Log} {e : Entry}
    (h : a ++ b = before ++ e :: after) :
    (∃ rest, a = before ++ e :: rest) ∨ ∃ found, before = a ++ found ∧ b = found ++ e :: after := by
  rcases List.append_eq_append_iff.mp h with ⟨found, hbefore, hb⟩ | ⟨rest, ha, hafter⟩
  · exact .inr ⟨found, hbefore, hb⟩
  · cases rest with
    | nil => exact .inr ⟨[], by simpa using ha.symm, by simpa using hafter.symm⟩
    | cons e' rest =>
      cases hafter
      exact .inl ⟨rest, ha⟩

theorem Log.Restoring.after {log : Log} (h : Restoring log) (earlier : Log) :
    Restoring (earlier ++ log) := by
  obtain ⟨before, d, e, after, rfl, hrest⟩ := h
  exact ⟨earlier ++ before, d, e, after, by simp, hrest⟩

theorem Log.mem_calls {log : Log} {d : Duty} (h : .called d ∈ log) : d ∈ calls log :=
  List.mem_filterMap.mpr ⟨_, h, rfl⟩

namespace Session

namespace Recovers

theorem of_undialled
    (h : ∃ new, s'.log = s.log ++ new ∧ ∀ d ∈ Log.calls new, d.isDialling = false) :
    Recovers s s' := by
  obtain ⟨new, hlog, hcalls⟩ := h
  refine ⟨new, hlog, fun found d rest hnew hd => ?_⟩
  have hmem : d ∈ Log.calls new := Log.mem_calls (by simp [hnew])
  simp [hcalls d hmem] at hd

theorem trans {a b c : Session (Log × ω)} (h : Recovers a b) (h' : Recovers b c) :
    Recovers a c := by
  obtain ⟨new, hlog, hnew⟩ := h
  obtain ⟨new', hlog', hnew'⟩ := h'
  refine ⟨new ++ new', by rw [hlog', hlog, List.append_assoc], fun found d rest hsplit hd => ?_⟩
  rcases Log.append_eq_split hsplit with ⟨rest', hfirst⟩ | ⟨found', rfl, hsecond⟩
  · exact hnew found d rest' hfirst hd
  · exact (hnew' found' d rest hsecond hd).after new

theorem growth (p : Parties ω) :
    Growth p (fun d => d.isDialling = false) (Recovers (ω := ω)) :=
  have h := Lasts.growth p fun d => d.isDialling = false
  { trans := .trans
    unmoved := fun hs => of_undialled (h.unmoved hs).log
    elsewhere := fun s w => of_undialled (h.elsewhere s w).log
    called := fun s _ hd => of_undialled (h.called s hd).log
    returned := fun s d x => of_undialled (h.returned s d x).log
    asked := fun ha => of_undialled (h.asked ha).log
    unanswered := fun ha => of_undialled (h.unanswered ha).log }

theorem restore {t : Session (Log × ω)} (h : Recovers s t) (hlost : LostSince s t) :
    Recovers s (Link.restore p.logged t).2 := by
  have hgrowth := Lasts.growth p fun d => d.isConnecting Attempt.isAutomatic = true
  have hrestore : Follows hgrowth.course (Link.restore p.logged) :=
    Link.follows_restore (Link.grows_covers hgrowth fun _ hd => hd) rfl
  obtain ⟨new, hlog, hcalls⟩ := (hgrowth.grows hrestore t).log
  obtain ⟨found, hfound, hrecovers⟩ := h
  obtain ⟨since, d, e, hsince, hd, he⟩ := hlost
  have hsame : found = since ++ [.returned d (.error (.error e))] :=
    List.append_cancel_left (hfound.symm.trans hsince)
  refine ⟨found ++ new, by rw [hlog, hfound, List.append_assoc], ?_⟩
  intro before d' rest hsplit hd'
  rcases Log.append_eq_split hsplit with ⟨rest', hfirst⟩ | ⟨more, rfl, hsecond⟩
  · exact hrecovers before d' rest' hfirst hd'
  · refine ⟨since, d, e, more, by simp [hsame], hd, he, fun c hc => hcalls c ?_⟩
    rw [hsecond, Log.calls_append]
    exact List.mem_append_left _ hc

end Recovers

theorem LostSince.of_informed {kind : Duty → Bool} {e : Error}
    (h : s'.Informed kind (.error e)) (hlost : e.losesConnection = true)
    (hkind : ∀ d, kind d = true → d.isTelltale = true)
    (hlog : ∃ new, s'.log = s.log ++ new ∧ new ≠ []) : LostSince s s' := by
  obtain ⟨earlier, d, hend, hd⟩ := h
  obtain ⟨new, hlog, hnew⟩ := hlog
  obtain ⟨since, last, rfl⟩ := (List.eq_nil_or_concat new).resolve_left hnew
  rw [List.concat_eq_append] at hlog
  have hlast : last = .returned d (.error (.error e)) := by
    have hsplit := hlog.symm.trans hend
    rw [← List.append_assoc] at hsplit
    exact (List.append_singleton_inj.mp hsplit).2
  exact ⟨since, d, e, by rw [hlog, hlast], hkind d hd, hlost⟩

theorem party_noted (p : Parties ω) (d : Duty) (m : Play ω α) (s : Session (Log × ω)) :
    ∃ new, (party p.logged (m.logged d) s).2.log = s.log ++ new ∧ new ≠ [] := by
  obtain ⟨new, hturned⟩ := party_logged p d m s
  refine ⟨new, hturned.log, ?_⟩
  rintro rfl
  exact absurd hturned.calls (by simp)

end Session

theorem Query.Loses.lostSince (h : Query.Loses p s s') : LostSince s s' := by
  obtain @⟨q, sql, last, e, hrun, hlost⟩ := h
  have hinformed := blames_attemptStatement charges_loss p q sql last s _ s' hrun ⟨e, rfl, hlost⟩
  have hnoted : ∃ new, (party p.logged (p.logged.backend.execute sql q.params) s).2.log =
      s.log ++ new ∧ new ≠ [] := party_noted p _ (p.backend.execute sql q.params) s
  have hgrowth := Lasts.growth p fun _ => True
  have hreading : Query.Covers hgrowth.course p := (Task.grows_performs hgrowth
    (Lasts.emits p fun _ => trivial) fun _ _ => trivial).toReading
  refine .of_informed hinformed hlost (fun _ => Duty.isTelltale_of_isStatement) ?_
  rw [attemptStatement, now_bind_apply, bind_apply] at hrun
  rcases hexec : party p.logged (p.logged.backend.execute sql q.params) s with ⟨stop | _, s₁⟩ <;>
    rw [hexec] at hrun hnoted
  · cases hrun
    exact hnoted
  · have hread := (hgrowth.grows (Query.follows_readSets hreading hgrowth.refl q sql last
      (p.logged.clock s.outside) p.logged.patience) s₁).log
    dsimp only at hrun
    rw [hrun] at hread
    obtain ⟨new, hlog, hnew⟩ := hnoted
    obtain ⟨more, hmore, -⟩ := hread
    exact ⟨new ++ more, by rw [hmore, hlog, List.append_assoc], by simp [hnew]⟩

theorem Service.Loses.lostSince (h : Service.Loses p s s') : LostSince s s' := by
  obtain @⟨e, hrun, hlost⟩ := h
  have hblames : Blames Duty.isTelltale Stop.LosesConnection
      (party p.logged p.logged.backend.ping) :=
    blames_party p p.backend.ping (fun _ _ => rfl) charges_loss.hang
  have hnoted : ∃ new, (party p.logged p.logged.backend.ping s).2.log = s.log ++ new ∧ new ≠ [] :=
    party_noted p .ping p.backend.ping s
  rw [hrun] at hnoted
  exact .of_informed (hblames s _ s' hrun ⟨e, rfl, hlost⟩) hlost (fun _ hd => hd) hnoted

namespace Session

theorem Recovers.tends (p : Parties ω) : Tends (Recovers.growth p).course p :=
  (growth p).tends (fun h => of_undialled (Lasts.ofInner h).log)
    ((growth p).emits (fun _ _ => of_undialled (Lasts.ofInner (.of_eq rfl)).log) fun _ _ => rfl)
    (fun _ => Duty.not_isDialling_of_isTeardown) fun _ => rfl

/-- A built-in task that is run recovers lost connections only. -/
theorem recovers_builtIn (p : Parties ω) :
    Growth p (fun d => d.isDialling = false) fun s s' : Session (Log × ω) =>
      s.active.work.isBuiltIn = true → Recovers s s' ∧ s'.active.work = s.active.work :=
  ((Recovers.growth p).both (work_growth p _)).given fun h hs => by rw [h.2]; exact hs

theorem recovers_perform (t : Task) (ht : t.work.isBuiltIn = true) (s : Session (Log × ω)) :
    Recovers s (Task.perform p.logged t s).2 := by
  have hgrowth := recovers_builtIn p
  have hemit : Emits p fun s s' : Session (Log × ω) =>
      s.active.work.isBuiltIn = true → Recovers s s' ∧ s'.active.work = s.active.work :=
    hgrowth.emits (fun _ _ _ => ⟨.of_undialled (Lasts.ofInner (.of_eq rfl)).log, rfl⟩)
      fun _ _ => rfl
  have hwork := work_growth p fun _ => True
  have hcovers : Link.Covers hwork.course p fun _ => true :=
    Link.grows_covers hwork fun _ _ => trivial
  have hrestore : Follows hwork.course (Link.restore p.logged) := Link.follows_restore hcovers rfl
  have hperforms : Task.Performs hgrowth.course p := by
    refine Task.performs_of_growth hgrowth hemit (fun _ => Duty.not_isDialling_of_task)
      (fun h => h) (fun h => h) (fun h => h) (fun {s₀ s} hloses hgoes => ?_) fun {key s} hw => ?_
    · have hrestored : s₀.active.work.isBuiltIn = true → Recovers s₀ (Link.restore p.logged s).2 ∧
          (Link.restore p.logged s).2.active.work = s₀.active.work := fun hs =>
        ⟨(hgoes hs).1.restore hloses.lostSince, (hwork.grows hrestore s).trans (hgoes hs).2⟩
      exact allows_of_panics hrestored hrestored
    · have hvoid : s.active.work.isBuiltIn = true → Recovers s (Task.runErrand p.logged key s).2 ∧
          (Task.runErrand p.logged key s).2.active.work = s.active.work := fun hs => by
        rw [hw] at hs
        cases hs
      exact allows_of_panics hvoid hvoid
  have htake : Recovers s (Task.takeUp t s) := .of_undialled (Lasts.ofInner (.of_eq rfl)).log
  have hperform := (hperforms.follows_perform (t := t) (fun _ _ => hgrowth.permits rfl) s).grown
  exact htake.trans (hperform ht).1

theorem recovers_carryOut {k : Purpose} (hk : k.isConnecting = false) (hcustom : k.isCustom = false)
    (s : Session (Log × ω)) : Recovers s (k.carryOut p.logged s).2 := by
  have hgrowth := Recovers.growth p
  cases k with
  | opening | renewal _ => cases hk
  | task t => exact recovers_perform t (by simpa [Purpose.isCustom] using hcustom) s
  | probe =>
    refine hgrowth.grows (Service.follows_handleProbe (Recovers.tends p) (hgrowth.permits rfl)
      fun {s₀ s} hloses hgoes => ?_) s
    have hrestored : Recovers s₀ (Link.restore p.logged s).2 := hgoes.restore hloses.lostSince
    exact allows_of_panics hrestored hrestored
  | other => exact hgrowth.refl s

theorem connectsAtMost_carryOut {k : Purpose} (hk : k.isConnecting = true) :
    ConnectsAtMost 1 (k.carryOut p.logged) := by
  have hpublish : ConnectsAtMost 0 (Link.publish p.logged) :=
    connectsAtMost_of_calling (Link.follows_publish (fun d hd => Link.connectless_permits p
      (Duty.not_isConnect_of_not_isDialling (Duty.not_isDialling_of_isPublishing hd))) fun _ _ =>
        ⟨[], by simp [Session.log], by simp⟩)
  cases k with
  | opening =>
    exact connectsAtMost_bind (k := 0) (Link.connectsAtMost_connect p) fun _ => hpublish
  | renewal options =>
    refine connectsAtMost_bind (n := 0) (connectsAtMost_of_calling (follows_modify fun s => ?_))
      fun _ => connectsAtMost_bind (k := 0) (Link.connectsAtMost_reconnect p) fun _ => hpublish
    cases options <;> exact ⟨[], by simp [Session.log, adopted], by simp⟩
  | task _ | probe | other => cases hk

/-- What is done towards a connection for a purpose, in a session that may restore a lost one or may
not. Observers are told of attempts that have to do with the purpose only. A caller who asked for
the connection is content with one attempt. Otherwise nothing is done unless the session may
restore the connection, and then a lost one has been reported, custom tasks aside. -/
structure Gated (auto : Bool) (k : Purpose) (new : Log) : Prop where
  told : ∀ d ∈ Log.calls new, d.IsToldOf k.attempts
  once : k.isConnecting = true → (Log.calls new).countP Duty.isConnect ≤ 1
  never : k.mayConnect auto = false → ∀ d ∈ Log.calls new, d.isDialling = false
  lost : k.isConnecting = false → k.isCustom = false → ∀ found d rest,
    new = found ++ .called d :: rest → d.isDialling = true → Log.Restoring found

/-- What happens to a session, deed by deed; whether or not it comes back. -/
inductive Elapses (s : Session (Log × ω)) : List (Episode ω) → Session (Log × ω) → Prop where
  | refl : Elapses s [] s
  | step {p : Parties ω} {k : Purpose} {x : Except Stop Unit} {life : List (Episode ω)}
      {s₁ a s₂ : Session (Log × ω)} (h : Elapses s life s₁) (hdeed : Deed p s₁ k a x s₂) :
      Elapses s (life ++ [⟨p, k, s₁, a, s₂⟩]) s₂

end Session

theorem Call.purpose_cases (c : Call) (life : Life) :
    c.purpose life = .other ∨ life = .idle ∧ c.purpose life = .opening ∨
      life = .inCaller ∧ c.purpose life ≠ .opening := by
  have hinCaller : ∀ {k : Purpose}, k ≠ .opening → Purpose.inCaller life k = .other ∨
      life = .idle ∧ Purpose.inCaller life k = .opening ∨
      life = .inCaller ∧ Purpose.inCaller life k ≠ .opening := by
    intro k hk
    unfold Purpose.inCaller
    split
    · next hlife => exact .inr (.inr ⟨hlife, hk⟩)
    · exact .inl rfl
  cases c with
  | start =>
    rw [Call.purpose]
    split
    · next hlife => exact .inr (.inl ⟨hlife, rfl⟩)
    · exact .inl rfl
  | reconnect _ | queueReconnect _ | execute _ | submit _ | assign _ => exact hinCaller (by simp)
  | _ => exact .inl rfl

namespace Session

theorem due_ne_opening (s : Session ω) : s.due ≠ .opening := by
  unfold due
  cases s.mailbox.queue with
  | nil => simp
  | cons request _ => cases request <;> simp [Request.purpose]

variable {k : Purpose} {a : Session (Log × ω)}

theorem Serves.told {x : Except Stop α} (h : Serves p k a x s') :
    Lasts (Duty.IsToldOf k.attempts) a s' :=
  have hgrowth := Lasts.growth p (Duty.IsToldOf k.attempts)
  have htends := Lasts.tends p (P := Duty.IsToldOf k.attempts) Duty.isToldOf_of_not_isDialling
  hgrowth.trans (hgrowth.grows (told_carryOut k) a) (h.allows htends).grown

namespace Deed

variable {x : Except Stop Unit}

theorem grows (h : Deed p s k a x s') {P : Duty → Prop}
    {G : Session (Log × ω) → Session (Log × ω) → Prop} (hg : Growth p P G)
    (hc : Tends hg.course p) (hk : G a (k.carryOut p.logged a).2) : G s s' :=
  hg.trans (hg.trans (hc.inner h.begins) hk) (h.serves.allows hc).grown

theorem told (h : Deed p s k a x s') : Lasts (Duty.IsToldOf k.attempts) s s' :=
  (Lasts.growth p _).trans (.ofInner h.begins) h.serves.told

theorem once (h : Deed p s k a x s') (hk : k.isConnecting = true) :
    ∃ new, s'.log = s.log ++ new ∧ (Log.calls new).countP Duty.isConnect ≤ 1 := by
  obtain ⟨first, hfirst, hnone⟩ := h.begins.log
  obtain ⟨new, hnew, hcount⟩ := connectsAtMost_carryOut (p := p) hk a
  have hundialled := Lasts.tends p (P := fun d => d.isDialling = false) fun hd => hd
  obtain ⟨after, hafter, hcalls⟩ := (h.serves.allows hundialled).grown.log
  have hrest : (Log.calls after).countP Duty.isConnect = 0 := List.countP_eq_zero.mpr fun d hd => by
    simp [Duty.not_isConnect_of_not_isDialling (hcalls d hd)]
  refine ⟨first ++ (new ++ after), by rw [hafter, hnew, hfirst]; simp, ?_⟩
  simp only [Log.calls_append, List.countP_append, hnone, hrest]
  simpa using hcount

theorem never (h : Deed p s k a x s')
    (hk : k.mayConnect s.link.options.autoReconnect = false) : Undialled s s' := by
  have hgrowth := Lasts.growth p fun d => d.isDialling = false
  have hgiven := undialled_given p
  cases k with
  | opening | renewal _ => cases hk
  | task _ | probe =>
    exact h.grows hgiven (undialled_tends p) (hgiven.grows (undialled_carryOut rfl) a) hk
  | other => exact h.grows hgrowth (Lasts.tends p fun hd => hd) (hgrowth.refl a)

theorem recovers (h : Deed p s k a x s') (hk : k.isConnecting = false)
    (hcustom : k.isCustom = false) : Recovers s s' :=
  h.grows (Recovers.growth p) (Recovers.tends p) (recovers_carryOut hk hcustom a)

theorem opens (h : Deed p s k a x s') (hk : k = .opening) : s.life = .idle ∧ s'.life ≠ .idle := by
  have hopened : s.life = .idle ∧ a.life = .closed := by
    cases h with
    | @call c _ _ _ _ =>
      refine ⟨?_, by rw [hk]; rfl⟩
      rcases c.purpose_cases s.life with hother | ⟨hidle, -⟩ | ⟨-, hne⟩
      · cases hother.symm.trans hk
      · exact hidle
      · exact absurd hk hne
    | work _ _ => exact absurd hk s.due_ne_opening
    | closing _ | asking _ | tick | elsewhere _ => cases hk
  refine ⟨hopened.1, fun hidle => ?_⟩
  exact absurd (hopened.2.symm.trans (h.serves.told.begun hidle)) (by simp)

end Deed

/-- Every episode keeps to what its purpose allows. -/
theorem Episode.gated {e : Episode ω} {x : Except Stop Unit}
    (h : Deed e.parties e.before e.purpose e.start x e.after) :
    Gated e.before.link.options.autoReconnect e.purpose e.entries where
  told := by
    obtain ⟨new, hlog, hcalls⟩ := h.told.log
    rwa [entries_of_log hlog]
  once hk := by
    obtain ⟨new, hlog, hcount⟩ := h.once hk
    rwa [entries_of_log hlog]
  never hk := by
    obtain ⟨new, hlog, hcalls⟩ := (h.never hk).log
    rwa [entries_of_log hlog]
  lost hk hcustom := by
    obtain ⟨new, hlog, hrecovers⟩ := h.recovers hk hcustom
    rwa [entries_of_log hlog]

namespace Elapses

variable {life : List (Episode ω)}

theorem autoReconnect_eq (h : Elapses s life s') :
    s'.link.options.autoReconnect = s.link.options.autoReconnect := by
  induction h with
  | refl => rfl
  | step _ hdeed ih => exact hdeed.told.autoReconnect.trans ih

theorem log_eq (h : Elapses s life s') : s'.log = s.log ++ life.flatMap Episode.entries := by
  induction h with
  | refl => simp
  | @step p k x life s₁ a s₂ _ hdeed ih =>
    obtain ⟨new, hlog, -⟩ := hdeed.told.log
    have hentries : Episode.entries ⟨p, k, s₁, a, s₂⟩ = new := Episode.entries_of_log hlog
    simp [hlog, ih, hentries]

theorem unopened (h : Elapses s life s') (hidle : s'.life = .idle) :
    ∀ e ∈ life, e.purpose ≠ .opening := by
  induction h with
  | refl => simp
  | step _ hdeed ih =>
    intro e he
    rcases List.mem_append.mp he with he | he
    · exact ih (hdeed.told.begun hidle) e he
    · rw [List.mem_singleton.mp he]
      exact fun hk => (hdeed.opens hk).2 hidle

theorem split {earlier later : List (Episode ω)} {e : Episode ω}
    (h : Elapses s (earlier ++ e :: later) s') :
    Elapses s earlier e.before ∧
      ∃ x, Deed e.parties e.before e.purpose e.start x e.after := by
  generalize hlife : earlier ++ e :: later = life at h
  induction h generalizing later with
  | refl => simp at hlife
  | step hbefore hdeed ih =>
    rcases later.eq_nil_or_concat with rfl | ⟨between, last, rfl⟩
    · obtain ⟨rfl, rfl⟩ := List.append_singleton_inj.mp hlife
      exact ⟨hbefore, _, hdeed⟩
    · rw [List.concat_eq_append, ← List.cons_append, ← List.append_assoc] at hlife
      exact ih (List.append_singleton_inj.mp hlife).1

end Elapses

/-- Whether a lost connection may be restored is settled for life, and everything that is ever done
towards a connection belongs to an episode that may do it: to the start of the session, which
happens once at most, to a reconnect that a caller asked for, each of which connects once at most,
or, if the connection may be restored, to the run of a task or to a test of the connection. There it
directly follows a lost connection that the backend reported to a statement or to a ping, unless the
task is a custom one. No attempt is told of as automatic in any other episode. -/
theorem autoReconnect_gates {id name : String} {options : Options} {settings : Settings} {w : ω}
    {life : List (Episode ω)}
    (h : Elapses (create id name options settings (([] : Log), w)) life s) :
    s.link.options.autoReconnect = options.autoReconnect ∧
      s.log = life.flatMap Episode.entries ∧
      ∀ earlier e later, life = earlier ++ e :: later →
        (e.purpose = .opening → ∀ d ∈ earlier, d.purpose ≠ .opening) ∧
          Gated options.autoReconnect e.purpose e.entries := by
  refine ⟨h.autoReconnect_eq, by simpa [create, Session.log] using h.log_eq, ?_⟩
  rintro earlier e later rfl
  obtain ⟨hearlier, x, hdeed⟩ := h.split
  have hauto : e.before.link.options.autoReconnect = options.autoReconnect :=
    hearlier.autoReconnect_eq
  exact ⟨fun hk => hearlier.unopened (hdeed.opens hk).1, hauto ▸ e.gated hdeed⟩

namespace Restored

open Rehearsal

/-- It loses the connection the first time. -/
def statement : Statement where
  sql := "SELECT 1"
  times := some 1
  drops := true
  fate := .error (.unconnected .driver)

def cast : Cast where
  backend := { statements := [statement] }
  connectionObservers := [none]

def query : Task := { work := .query (.ofText "SELECT 1"), courier := { sink := .channel 1 } }

def created : Session (Log × Scene) :=
  .create "s1" "Mock" { autoReconnect := true } { threaded := false } ([], cast.scene {} [])

def started : Session (Log × Scene) := (perform cast.parties.logged .start created).2

def queried : Session (Log × Scene) := (perform cast.parties.logged (.execute query) started).2

/-- A caller would have it otherwise from now on. -/
def renewed : Session (Log × Scene) :=
  (perform cast.parties.logged (.reconnect (some { autoReconnect := false })) queried).2

/-- The observer is told of the opening, of the reconnect after the lost statement, and of the one
that was asked for. -/
theorem autoReconnect_gates_restored :
    ∃ life, Elapses created life renewed ∧ renewed.link.options.autoReconnect = true ∧
      renewed.log = life.flatMap Episode.entries ∧
      (∀ e ∈ life, Gated true e.purpose e.entries) ∧
      life.map Episode.purpose = [.opening, .task query.keepingEvents,
        .renewal (some { autoReconnect := false })] ∧
      life.map (fun e => (Log.calls e.entries).filterMap Duty.toldOf) =
        [[.opening, .opening], [.reconnect .automatic, .reconnect .automatic],
          [.reconnect .user, .reconnect .user]] := by
  have hstart := Deed.ofCall (p := cast.parties) .start created (fun _ => rfl) (by decide +kernel)
  have hquery := Deed.ofCall (p := cast.parties) (.execute query) started (fun _ => rfl)
    (by decide +kernel)
  have hrenew := Deed.ofCall (p := cast.parties) (.reconnect (some { autoReconnect := false }))
    queried (by decide +kernel) (by decide +kernel)
  have helapses : Elapses created _ renewed :=
    ((Elapses.refl.step hstart).step hquery).step hrenew
  have hgates := autoReconnect_gates helapses
  have hlives : created.life = .idle ∧ started.life = .inCaller ∧ queried.life = .inCaller := by
    decide +kernel
  refine ⟨_, helapses, hgates.1, hgates.2.1, fun e he => ?_, ?_, by decide +kernel⟩
  · obtain ⟨earlier, later, hlife⟩ := List.append_of_mem he
    exact (hgates.2.2 earlier e later hlife).2
  · simp [hlives, Call.purpose, Purpose.inCaller]

end Restored
end Session
end DatabaseSession
