import DatabaseSession.Proofs.Jobs

namespace DatabaseSession

/-- Not a question about a fresh connection, and no word of one but of those that are restored. -/
def Duty.isUpkeep : Duty → Bool
  | .info | .defaultSchema | .interrupter => false
  | .notice _ (.connected attempt) => attempt.isAutomatic
  | _ => true

theorem Duty.isUpkeep_of_isBeside {d : Duty} (h : d.isBeside = true) : d.isUpkeep = true := by
  cases d <;> simp_all [isBeside, isConnecting, isPublishing, isUpkeep]

theorem Duty.isUpkeep_of_isConnecting {d : Duty}
    (h : d.isConnecting Attempt.isAutomatic = true) : d.isUpkeep = true := by
  cases d with
  | notice i n => cases n <;> simp_all [isConnecting, isUpkeep, ConnectionNotice.attempt]
  | _ => simp_all [isConnecting, isUpkeep]

open Course Run Session

variable {ω : Type} {p : Parties ω} {s s' : Session (Log × ω)}

/-- What is known about the connection stays, and nobody is asked or told of a connection but of
those that are restored. -/
abbrev Session.Upholds (s s' : Session (Log × ω)) : Prop := Beside Duty.isUpkeep s s'

abbrev Course.upholding (ω : Type) : Course (Log × ω) := beside ω Duty.isUpkeep

/-- Whenever the computation stops short of a value, it has stayed on the course. -/
def Run.Misses {ω α : Type} (c : Course ω) (m : Run ω α) : Prop :=
  ∀ ⦃s stop s'⦄, m s = (.error stop, s') → stop ≠ .hang → c.Goes s s'

namespace Run

variable {ω α β : Type} {c : Course ω}

theorem misses_of_follows {m : Run ω α} (h : Follows c m) : Misses c m :=
  fun _ _ _ hrun hstop => h.goes hrun (by simpa using hstop)

theorem misses_of_stops {m : Run ω α} (h : Stops (· = .hang) m) : Misses c m := by
  intro s stop s' hrun hstop
  exact absurd (h s stop (by rw [hrun])) hstop

theorem misses_bind {m : Run ω α} {f : α → Run ω β} (hm : Follows c m)
    (hf : ∀ a, Misses c (f a)) : Misses c (m >>= f) := by
  intro s stop s' hrun hstop
  rw [bind_apply] at hrun
  rcases hms : m s with ⟨_ | a, s₁⟩ <;> rw [hms] at hrun
  · cases hrun
    exact misses_of_follows hm hms hstop
  · exact c.trans (hm.goes hms (by simp)) (hf a hrun hstop)

theorem misses_bind_modify {m : Run ω α} (hm : Misses c m) (f : Session ω → Session ω) :
    Misses c (m >>= fun _ => (modify f : Run ω Unit)) := by
  intro s stop s' hrun hstop
  rw [bind_apply] at hrun
  rcases hms : m s with ⟨_ | a, s₁⟩ <;> rw [hms] at hrun <;> cases hrun
  exact hm hms hstop

end Run

namespace Link

theorem upholding_covers (p : Parties ω) : Covers (upholding ω) p Attempt.isAutomatic where
  permits _ hd := beside_permits (Duty.isUpkeep_of_isConnecting hd)
  counts _ := Beside.of_eq rfl rfl

theorem restore_upholds {x : Except Stop Bool} (hrun : restore p.logged s = (x, s'))
    (hx : x ≠ .error .hang) : Upholds s s' :=
  (follows_restore (upholding_covers p) rfl).goes hrun hx

theorem misses_tryConnect (attempt : Attempt) :
    Misses (upholding ω) (tryConnect p.logged attempt) := by
  have hnotice : ∀ n : ConnectionNotice, (∀ a, n ≠ .connected a) →
      Follows (upholding ω) (announce p.logged n) := by
    intro n hn
    refine follows_announce fun i => beside_permits ?_
    cases n <;> simp_all [Duty.isUpkeep]
  refine misses_bind (follows_hooks fun i _ => follows_always (beside_permits rfl _)) fun _ =>
    misses_bind (hnotice _ (by simp)) fun _ =>
      misses_bind (follows_attempt (follows_establish (upholding_covers p))) fun r => ?_
  cases r with
  | ok _ => exact misses_of_stops (stops_forM _ fun _ => stops_shielded _)
  | error e =>
    exact misses_of_follows (follows_bind
      (follows_hooks fun i _ => follows_always (beside_permits rfl _)) fun _ =>
        follows_bind (hnotice _ (by simp)) fun _ => follows_raise e)

theorem misses_connect : Misses (upholding ω) (connect p.logged) :=
  misses_bind follows_ensureHeld fun _ => misses_tryConnect .opening

theorem misses_reconnect : Misses (upholding ω) (reconnect p.logged .user) :=
  have hdisconnect : Follows (upholding ω) (always (party p.logged p.logged.backend.disconnect)) :=
    follows_always (beside_permits (d := .disconnect) rfl _)
  misses_bind follows_ensureHeld fun _ => misses_bind follows_get fun _ =>
    misses_bind hdisconnect fun _ => misses_bind_modify (misses_tryConnect _) _

end Link

namespace Session

theorem upholds_of_stretch (h : Task.Stretch Duty.isBeside p s s') : Upholds s s' := by
  induction h with
  | refl => exact .refl s
  | beside _ hbeside ih => exact ih.trans (hbeside.mono Duty.isUpkeep_of_isBeside)
  | restored _ hrun hx ih => exact ih.trans (Link.restore_upholds hrun hx)

theorem upholding_tends : Tends (upholding ω) p where
  inner h := h.apart.toBeside.mono fun hd => Duty.isUpkeep_of_isBeside (Duty.isBeside_of_isApart hd)
  teardown _ hd := beside_permits
    (Duty.isUpkeep_of_isBeside (Duty.isBeside_of_isApart (Duty.isApart_of_isTeardown hd)))
  cancels := beside_of_apart
    (fun hd => Duty.isUpkeep_of_isBeside (Duty.isBeside_of_isApart hd)) Task.apart_cancel
  panics := Beside.refl
  stuck := Beside.refl
  stops h := h

/-- A connection that was asked for is made in the episode: the first one, or another one for a
caller. -/
def Episode.Renews (e : Episode ω) (b : Session (Log × ω)) : Prop :=
  match e.purpose with
  | .opening => Link.connect e.parties.logged e.start = (.ok (), b)
  | .renewal options =>
    Link.reconnect e.parties.logged .user (e.start.adopted options) = (.ok (), b)
  | _ => False

/-- A connection that was asked for is made known when it is made. -/
theorem carryOut_renews {e : Episode ω} {y : Except Stop Unit} {b : Session (Log × ω)}
    (hrun : e.purpose.carryOut e.parties.logged e.start = (y, b)) (hy : y ≠ .error .hang) :
    (∀ a, ¬ e.Renews a) ∧ Upholds e.start b ∨
      ∃ a, e.Renews a ∧ Link.publish e.parties.logged a = (y, b) := by
  obtain ⟨p, k, s, a, s'⟩ := e
  dsimp only at hrun
  cases k with
  | opening =>
    rw [Purpose.carryOut, bind_apply] at hrun
    rcases hr : Link.connect p.logged a with ⟨stop | _, a₁⟩ <;> rw [hr] at hrun
    · cases hrun
      refine .inl ⟨fun c hc => ?_, Link.misses_connect hr (by simpa using hy)⟩
      cases hr.symm.trans hc
    · exact .inr ⟨a₁, hr, hrun⟩
  | renewal options =>
    rw [Purpose.carryOut, reconnectHere, bind_apply, modify_apply] at hrun
    dsimp only at hrun
    rw [Link.renew, bind_apply] at hrun
    -- to take over new options shows nothing yet
    have hadopted : Upholds a (a.adopted options) := by
      cases options <;> exact .of_eq rfl rfl
    rcases hr : Link.reconnect p.logged .user (a.adopted options) with ⟨stop | _, a₁⟩ <;>
      rw [hr] at hrun
    · cases hrun
      refine .inl ⟨fun c hc => ?_,
        hadopted.trans (Link.misses_reconnect hr (by simpa using hy))⟩
      cases hr.symm.trans hc
    · exact .inr ⟨a₁, hr, hrun⟩
  | task t => exact .inl ⟨fun _ h => h, upholds_of_stretch (Task.perform_stretch hrun hy)⟩
  | probe =>
    have hprobe : Follows (upholding ω) (Service.handleProbe p.logged) :=
      Service.follows_handleProbe upholding_tends (beside_permits (d := .ping) rfl)
        fun _ hgoes => (Link.follows_restore (Link.upholding_covers p) rfl _).after hgoes
    exact .inl ⟨fun _ h => h, hprobe.goes hrun hy⟩
  | other =>
    cases hrun
    exact .inl ⟨fun _ h => h, .refl _⟩

/-- Whatever else a session does, it leaves known what is known about the connection. -/
theorem Lives.upholds {life : List (Episode ω)} (h : Lives s life s')
    (hnone : ∀ e ∈ life, ∀ b, ¬ e.Renews b) : Upholds s s' := by
  refine h.goes (c := upholding ω) fun e he x hdeed hx => ?_
  obtain ⟨y, b, hcarry, hy, hafter⟩ := hdeed.carriesOut hx
  rcases carryOut_renews hcarry hy with ⟨-, hupholds⟩ | ⟨a, hrenews, -⟩
  · have htends := upholding_tends (p := e.parties)
    exact ((htends.inner hdeed.begins).trans hupholds).trans (hafter htends)
  · exact absurd hrenews (hnone e he a)

end Session

namespace Link

/-- What the backend reports about its connection when it is asked for one thing after the other.
Each report is known as soon as it is made. -/
inductive Reports (p : Parties ω) (s : Session ω) (r : Published) (s' : Session ω) : Prop where
  | intro {s₁ s₂ s₃ : Session ω}
      (hinfo : valueOr .null (party p p.backend.info) s = (.ok r.info, s₁))
      (hschema : valueOr none (party p p.backend.defaultSchema)
        { s₁ with published := { s₁.published with info := r.info } } =
          (.ok r.defaultSchema, s₂))
      (hinterrupter : valueOr none (party p p.backend.interrupter)
        { s₂ with published := { s₂.published with defaultSchema := r.defaultSchema } } =
          (.ok r.interrupter, s₃))
      (hend : s' = { s₃ with published := r })

theorem published_of_valueOr {α : Type} {d : Duty} {m : Play ω α} {default : α}
    {x : Except Stop α} (hrun : valueOr default (party p.logged (m.logged d)) s = (x, s')) :
    s'.published = s.published := by
  obtain ⟨new, ht⟩ := party_logged p d m s
  rw [valueOr_apply] at hrun
  rcases hr : party p.logged (m.logged d) s with ⟨(_ | _ | _) | _, s₁⟩ <;> rw [hr] at hrun ht <;>
    cases hrun <;> exact ht.published

theorem publish_reports (hrun : publish p.logged s = (.ok (), s')) :
    Reports p.logged s s'.published s' := by
  obtain ⟨info, s₁, hinfo, hrun⟩ := exists_of_bind_ok hrun
  obtain ⟨_, _, ⟨⟩, hrun⟩ := exists_of_bind_ok hrun
  obtain ⟨schema, s₂, hschema, hrun⟩ := exists_of_bind_ok hrun
  obtain ⟨_, _, ⟨⟩, hrun⟩ := exists_of_bind_ok hrun
  obtain ⟨interrupter, s₃, hinterrupter, hrun⟩ := exists_of_bind_ok hrun
  cases hrun
  -- the later questions leave the earlier reports as they are
  have hsecond : s₂.published = { s₁.published with info } :=
    published_of_valueOr (d := .defaultSchema) hschema
  have hthird : s₃.published = { s₂.published with defaultSchema := schema } :=
    published_of_valueOr (d := .interrupter) hinterrupter
  rw [hsecond] at hthird
  dsimp only
  rw [hthird]
  exact .intro hinfo hschema hinterrupter rfl

end Link

namespace Session

/-- What callers are shown of what the backend reported. -/
structure Shows (s : Session ω) (r : Published) : Prop where
  defaultSchema : ∀ p thread, answer p thread .defaultSchema s = (some (.schema r.defaultSchema), s)
  info : ∀ p thread, answer p thread .info s =
    (some (.info ({ s with published := r } : Session ω).info), s)
  kill : ∀ p thread, answer p thread .kill s = (some .unit, { s with
    killed := true
    outside := match r.interrupter with
      | some handle => p.interrupt handle s.outside
      | none => s.outside })

theorem shows_published (s : Session ω) : Shows s s.published :=
  ⟨fun _ _ => rfl, fun _ _ => rfl, fun _ _ => rfl⟩

/-- Whenever nothing is going on in a session, callers are shown what the backend reported after the
latest connection that was asked for, be it the first one or a caller's reconnect. What has been
connected since then was restored, and of that nothing was made known. -/
theorem shows_latest_renewal {id name : String} {options : Options} {settings : Settings} {w : ω}
    {life : List (Episode ω)}
    (hlives : Lives (create id name options settings (([] : Log), w)) life s) :
    (∀ e ∈ life, ∀ b, ¬ e.Renews b) ∧
        Shows s (create id name options settings (([] : Log), w)).published ∨
      ∃ (earlier : List (Episode ω)) (e : Episode ω) (later : List (Episode ω))
        (b c : Session (Log × ω)) (x : Except Stop Unit) (since : Log),
        life = earlier ++ e :: later ∧ e.Renews b ∧ (∀ d ∈ later, ∀ b, ¬ d.Renews b) ∧
        Link.publish e.parties.logged b = (x, c) ∧
        (x = .ok () ∧ (∃ r, Link.Reports e.parties.logged b r c ∧ Shows s r) ∨
          ∃ q, x = .error (.panic q)) ∧
        s.published = c.published ∧ s.log = c.log ++ since ∧
        ∀ d ∈ Log.calls since, d.isUpkeep = true := by
  have hshown := shows_published s
  -- by the last episode in which a renewal came as far as to be made known
  rcases none_or_last (fun e => ∃ b, e.Renews b) life with
    hnone | ⟨earlier, e, later, rfl, ⟨b, hb⟩, hnone⟩
  · have hnone : ∀ e ∈ life, ∀ b, ¬ e.Renews b := fun e he b hb => hnone e he ⟨b, hb⟩
    rw [(hlives.upholds hnone).published] at hshown
    exact .inl ⟨hnone, hshown⟩
  · have hnone : ∀ d ∈ later, ∀ b, ¬ d.Renews b := fun d hd b hb => hnone d hd ⟨b, hb⟩
    obtain ⟨-, ⟨x, hdeed, hx⟩, hlater⟩ := hlives.split
    obtain ⟨y, c, hcarry, hy, hafter⟩ := hdeed.carriesOut hx
    rcases carryOut_renews hcarry hy with ⟨hnot, -⟩ | ⟨a, ha, hpublish⟩
    · exact absurd hb (hnot b)
    · obtain ⟨hpublished, since, hlog, hduties⟩ :=
        (hafter upholding_tends).trans (hlater.upholds hnone)
      rw [hpublished] at hshown
      refine .inr ⟨earlier, e, later, a, c, y, since, rfl, ha, hnone, hpublish, ?_, hpublished,
        hlog, hduties⟩
      rcases y with (e | q | _) | _
      · exact absurd rfl (Link.stops_publish _ a (.error e) (by rw [hpublish]) e)
      · exact .inr ⟨q, rfl⟩
      · exact absurd rfl hy
      · exact .inl ⟨rfl, c.published, Link.publish_reports hpublish, hshown⟩

section Stale

open Rehearsal

/-- A backend that counts its connections and loses the first one with the first statement. -/
def dropping : Cast where
  backend := {
    statements := [{ sql := "SELECT 1", times := some 1, drops := true,
                     fate := .error (.unconnected .driver) }] }

def unopened : Session (Log × Scene) :=
  .create "s1" "Mock" { autoReconnect := true } {} ([], dropping.scene {} [])

def opened : Session (Log × Scene) := (perform dropping.parties.logged .start unopened).2

def asked : Session (Log × Scene) :=
  (perform dropping.parties.logged (.execute (.ofText "SELECT 1")) opened).2

def restored : Session (Log × Scene) := (Service.step dropping.parties.logged asked).2

def report (connects : Nat) : Json :=
  Json.obj [("backend", .string "Mock"), ("connects", Json.ofNat connects)]

/-- The backend reports its second connection, but callers are still shown the first. -/
theorem shows_latest_renewal_stale :
    ∃ life, Lives unopened life restored ∧ (∀ e ∈ life, e.parties = dropping.parties) ∧
      (∃ earlier e later b c x, life = earlier ++ e :: later ∧ e.Renews b ∧
        (∀ d ∈ later, ∀ b, ¬ d.Renews b) ∧ Link.publish e.parties.logged b = (x, c) ∧
        restored.published = c.published) ∧
      restored.published.info = report 1 ∧
      (Link.publish dropping.parties.logged restored).2.published.info = report 2 := by
  have hstart : LivesWith dropping.parties unopened opened := .ofCall .start _ (by decide +kernel)
  have hask : LivesWith dropping.parties opened asked :=
    .ofCall (.execute (.ofText "SELECT 1")) _ (by decide +kernel)
  have hwork : LivesWith dropping.parties asked restored :=
    .ofWork _ (by decide +kernel) (by decide +kernel)
  obtain ⟨life, hlives, hparties⟩ := (hstart.trans hask).trans hwork
  have hinfo : restored.published.info = report 1 := by decide +kernel
  refine ⟨life, hlives, hparties, ?_, hinfo, by decide +kernel⟩
  rcases shows_latest_renewal hlives with ⟨hnone, -⟩ |
    ⟨earlier, e, later, b, c, x, -, hlife, hrenews, hnone, hpublish, -, hpublished, -⟩
  · -- before the first connection nothing was known of any
    have hunknown : unopened.published.info ≠ report 1 := by decide +kernel
    exact absurd ((hlives.upholds hnone).published ▸ hinfo) hunknown
  · exact ⟨earlier, e, later, b, c, x, hlife, hrenews, hnone, hpublish, hpublished⟩

end Stale
end Session
end DatabaseSession
