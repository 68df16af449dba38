import DatabaseSession.Session.Status
import DatabaseSession.Proofs.Accounts
import DatabaseSession.Proofs.Cancellation
import DatabaseSession.Proofs.LastResult

namespace DatabaseSession

open Course Run Session

variable {ω α : Type} {p : Parties ω} {s s' : Session (Log × ω)}

namespace Task

theorem undertake_work (p : Parties ω) (cancelled : Bool) (s : Session (Log × ω)) :
    (undertake p.logged cancelled s).2.active.work = s.active.work :=
  have hgrowth := work_growth p fun _ => True
  have hemits := hgrowth.emits (fun _ _ => rfl) fun _ _ => trivial
  hgrowth.grows (grows_undertake hgrowth hemits (fun _ _ => trivial) cancelled) s

/-- Only a custom task can panic when it is asked for its statistics. -/
theorem report_panics {q : Panic} (hrun : report p.logged s = (.error (.panic q), s')) :
    (∃ key, s.active.work = .custom key) ∧ s'.stats = s.stats := by
  rw [report, get_bind_apply] at hrun
  cases hw : s.active.work with
  | query _ | schema _ =>
    rw [hw] at hrun
    cases hrun
  | custom key =>
    rw [hw] at hrun
    exact ⟨⟨key, rfl⟩, ((follows_valueOr ({} : RunStats)
      (sameStats_permits p (.reportErrand key) _)).goes hrun (by simp)).1⟩

/-- This is what the task tells of its run when it is through. -/
inductive Reported (p : Parties ω) (t : Task) (s : Session ω) (r : RunStats) : Prop where
  | intro {s₁ s₂ s₃ : Session ω}
      (hstarted : announce p .started t.requestId (takeUp t s) = (.ok (), s₁))
      (hdone : undertake p (marked t s) (holdStats s₁) = (.ok (), s₂))
      (hreport : report p s₂ = (.ok r, s₃))

theorem perform_reported {t : Task} {x : Except Stop Unit}
    (hrun : perform p.logged t s = (x, s')) (hx : x ≠ .error .hang) :
    x = .ok () ∧ (∃ r, Reported p.logged t s r ∧ s'.stats = LastRunStats.ofRun r) ∨
      ∃ q key, x = .error (.panic q) ∧ t.work = .custom key ∧ s'.stats = s.stats := by
  obtain @⟨s₁, s₂, s₃, hstarted, hdone, haccount, hfinished⟩ := perform_staged hrun hx
  cases haccount with
  | reported hreport =>
    obtain ⟨-, hfinished⟩ | ⟨hne, -⟩ := hfinished
    · exact .inl ⟨rfl, _, .intro hstarted hdone hreport,
        ((sameStats_announce p _ _).goes hfinished (by simp)).1⟩
    · exact absurd rfl hne
  | panicked hreport =>
    obtain ⟨⟨key, hkey⟩, hsame⟩ := report_panics hreport
    have hactive : s₁.active = t := (sameActive_announce p _ _).goes hstarted (by simp)
    have hwork := undertake_work p (marked t s) (holdStats s₁)
    have hstats := (sameStats_undertakes p).follows_undertake (marked t s) (holdStats s₁)
    rw [hdone] at hwork hstats
    have hfirst : s₁.stats = (takeUp t s).stats :=
      ((sameStats_announce p _ _).goes hstarted (by simp)).1
    obtain ⟨hok, -⟩ | ⟨-, rfl⟩ := hfinished
    · cases hok
    · refine .inr ⟨_, key, rfl, ?_, (hsame.trans hstats.1).trans hfirst⟩
      rw [← hactive, ← hkey]
      exact hwork.symm

theorem report_builtIn (p : Parties ω) {s : Session ω} (h : s.active.work.isBuiltIn = true) :
    report p s = (.ok s.active.stats, s) := by
  rw [report, get_bind_apply]
  cases hw : s.active.work with
  | query _ | schema _ => rfl
  | custom key => simp [hw, Work.isBuiltIn] at h

def takeStats (s : Session ω) : Session ω :=
  { s with stats := LastRunStats.ofRun s.active.stats, statsHeld := false }

/-- A query or a schema task that is through tells what it has counted. -/
inductive Recorded (p : Parties ω) (t : Task) (s s' : Session ω) : Prop where
  | intro {s₁ s₂ : Session ω}
      (hstarted : announce p .started t.requestId (takeUp t s) = (.ok (), s₁))
      (hdone : undertake p (marked t s) (holdStats s₁) = (.ok (), s₂))
      (hfinished : announce p .finished t.requestId (takeStats s₂) = (.ok (), s'))

theorem perform_recorded {t : Task} {x : Except Stop Unit} (hwork : t.work.isBuiltIn = true)
    (hrun : perform p.logged t s = (x, s')) (hx : x ≠ .error .hang) : Recorded p.logged t s s' := by
  obtain @⟨s₁, s₂, s₃, hstarted, hdone, haccount, hfinished⟩ := perform_staged hrun hx
  have hactive : s₁.active = t := (sameActive_announce p _ _).goes hstarted (by simp)
  have hwork₂ : s₂.active.work.isBuiltIn = true := by
    have hsame := undertake_work p (marked t s) (holdStats s₁)
    rw [hdone] at hsame
    rw [hsame, ← hwork, ← hactive]
    rfl
  have hreport := report_builtIn p.logged hwork₂
  cases haccount with
  | reported hreport' =>
    rw [hreport] at hreport'
    cases hreport'
    obtain ⟨-, hfinished⟩ | ⟨hne, -⟩ := hfinished
    · exact .intro hstarted hdone hfinished
    · exact absurd rfl hne
  | panicked hreport' =>
    rw [hreport] at hreport'
    cases hreport'

theorem Recorded.stats {t : Task} (h : Recorded p.logged t s s') :
    s'.stats = LastRunStats.ofRun s'.active.stats := by
  obtain ⟨-, -, hfinished⟩ := h
  rw [((sameStats_announce p _ _).goes hfinished (by simp)).1,
    (sameActive_announce p _ _).goes hfinished (by simp)]
  rfl

/-- The counts of a query that has ended well are those of the last result set of its last
statement. -/
theorem Recorded.concludes {t : Task} {q : Query} (h : Recorded p.logged t s s')
    (hwork : t.work = .query q) (hq : q.statements ≠ []) (hopen : t.courier.terminal = none)
    (hok : s'.active.courier.terminal = some .ok) :
    ∃ sql st, q.statements.getLast? = some sql ∧ Query.Concludes p q sql st s s' := by
  have hmilestones : ∀ phase, Follows (calling ω fun d => d.isApart = true)
      (announce p.logged phase t.requestId) := fun phase =>
    follows_announce fun _ => calling_permits (P := fun d => d.isApart = true) p rfl
  obtain @⟨s₁, s₂, hstarted, hdone, hfinished⟩ := h
  have hactive₁ : s₁.active = t := (sameActive_announce p _ _).goes hstarted (by simp)
  have hactive : s'.active = (takeStats s₂).active :=
    (sameActive_announce p _ _).goes hfinished (by simp)
  obtain ⟨before, hbefore, -⟩ := (hmilestones .started).goes hstarted (by simp)
  replace hbefore : (holdStats s₁).log = s.log ++ before := hbefore
  obtain ⟨after, hafter, hnone⟩ := (hmilestones .finished).goes hfinished (by simp)
  have hwork₁ : (holdStats s₁).active.work = .query q := by
    rw [← hwork, ← hactive₁]
    rfl
  have hopen₁ : (holdStats s₁).active.courier.terminal = none := by
    rw [← hopen, ← hactive₁]
    rfl
  have hok₂ : s₂.active.courier.terminal = some .ok := by
    rw [← hok, hactive]
    rfl
  obtain ⟨sql, st, hlast, hconcludes⟩ := undertake_concludes hwork₁ hq hdone hopen₁ hok₂
  refine ⟨sql, st, hlast, (hconcludes.from_earlier hbefore).to_later hafter ?_ ?_ ?_⟩
  · refine List.filterMap_eq_nil_iff.mpr fun d hd => ?_
    have hapart := hnone d hd
    cases d <;> first | rfl | cases hapart
  · rw [hactive]
    rfl
  · rw [hactive]
    rfl

/-- What is remembered of a task that was run: what it told of its run, or what was remembered
before if the caller's own task panicked instead of telling. Of a query or a schema task it is what
the task has counted; the summary shows an error if its closing event does, and after a query that
ended well the counts are those of the last result set of its last statement. -/
structure Remembered (p : Parties ω) (t : Task) (x : Except Stop Unit) (s s' : Session (Log × ω))
    (stats : LastRunStats) : Prop where
  reported : (∃ r, Reported p.logged t s r ∧ stats = LastRunStats.ofRun r) ∨
    ∃ q key, x = .error (.panic q) ∧ t.work = .custom key ∧ stats = s.stats
  builtIn : t.work.isBuiltIn = true → stats = LastRunStats.ofRun s'.active.stats
  summary : Fresh t → ∃ new events closing, s'.log = s.log ++ new ∧
    Ended t (marked t s) events closing new s s' ∧
    (stats.summary.state = .error ↔ closing.state = .error) ∧
    ∀ report, closing.error = some report → stats.summary = ⟨.error, report.message⟩
  counts : ∀ q, t.work = .query q → q.statements ≠ [] → Fresh t →
    s'.active.courier.terminal = some .ok →
    ∃ sql st, q.statements.getLast? = some sql ∧ Query.Concludes p q sql st s s' ∧
      stats.rowsAffected = st.rowsAffected ∧ stats.lastInsertId = st.lastInsertId

theorem perform_remembered {t : Task} {x : Except Stop Unit}
    (hrun : perform p.logged t s = (x, s')) (hx : x ≠ .error .hang) :
    Remembered p t x s s' s'.stats := by
  have hbuiltIn : t.work.isBuiltIn = true → s'.stats = LastRunStats.ofRun s'.active.stats :=
    fun hwork => (perform_recorded hwork hrun hx).stats
  refine ⟨?_, hbuiltIn, fun ht => ?_, fun q hwork hq ht hok => ?_⟩
  · exact (perform_reported hrun hx).imp_left fun h => h.2
  · obtain ⟨new, events, closing, hlog, hended⟩ := perform_whole p ht hrun hx
    have herror : s'.stats.lastError = closing.error := by
      rw [hbuiltIn ht.builtIn]
      exact hended.lastError
    have hsome := hended.isSome_error
    refine ⟨new, events, closing, hlog, hended, ?_, fun report hreport => ?_⟩
    · rw [← hsome, LastRunStats.summary, herror]
      cases closing.error <;> simp
    · rw [LastRunStats.summary, herror, hreport]
  · obtain ⟨sql, st, hlast, hconcludes⟩ :=
      (perform_recorded ht.builtIn hrun hx).concludes hwork hq ht.unended hok
    have hcounted := hconcludes.counted
    rw [hbuiltIn ht.builtIn]
    exact ⟨sql, st, hlast, hconcludes, hcounted.1, hcounted.2⟩

end Task

namespace Session

def Episode.RunsTask (e : Episode ω) : Prop := ∃ t, e.purpose = .task t

theorem Lives.sameStats {life : List (Episode ω)} (h : Lives s life s')
    (hnone : ∀ e ∈ life, ¬ e.RunsTask) : s'.stats = s.stats :=
  (h.goes (c := Course.sameStats ω) fun e he _ hdeed hx =>
    hdeed.sameStats hx fun t ht => hnone e he ⟨t, ht⟩).1

/-- Whenever no task is run in a session, whoever asks is told the statistics of the task that was
run last, or that there was none. -/
theorem status_of_last_run {id name : String} {options : Options} {settings : Settings} {w : ω}
    {life : List (Episode ω)}
    (hlives : Lives (create id name options settings (([] : Log), w)) life s) :
    (∀ thread, s.status thread = .ok s.stats) ∧
      ((∀ e ∈ life, ¬ e.RunsTask) ∧ s.stats = {} ∨
        ∃ (earlier : List (Episode ω)) (e : Episode ω) (later : List (Episode ω)) (t : Task)
          (x : Except Stop Unit) (b : Session (Log × ω)),
          life = earlier ++ e :: later ∧ e.purpose = .task t ∧ (∀ d ∈ later, ¬ d.RunsTask) ∧
          Task.perform e.parties.logged t e.start = (x, b) ∧ x ≠ .error .hang ∧
          Task.Remembered e.parties t x e.start b s.stats) := by
  refine ⟨hlives.status_eq, ?_⟩
  rcases none_or_last Episode.RunsTask life with
    hnone | ⟨earlier, e, later, rfl, ⟨t, ht⟩, hnone⟩
  · exact .inl ⟨hnone, hlives.sameStats hnone⟩
  · obtain ⟨-, ⟨x, hdeed, hx⟩, hlater⟩ := hlives.split
    rw [ht] at hdeed
    obtain ⟨y, b, hrun, hy, hstats, -⟩ := hdeed.runs hx
    refine .inr ⟨earlier, e, later, t, y, b, rfl, ht, hnone, hrun, hy, ?_⟩
    rw [hlater.sameStats hnone, hstats]
    exact Task.perform_remembered hrun hy

section Counting

open Rehearsal

/-- A backend whose only statement gives two result sets. -/
def counting : Cast where
  backend := {
    statements := [{ sql := "INSERT", sets := [
      { stats := { rowsAffected := 3, lastInsertId := some 7 } },
      { stats := { rowsAffected := 5, lastInsertId := some 9 } }] }] }

def uncounted : Session (Log × Scene) :=
  .create "s1" "Mock" {} {} ([], counting.scene {} [])

def counter : Session (Log × Scene) := (perform counting.parties.logged .start uncounted).2

def inserting : Session (Log × Scene) :=
  (perform counting.parties.logged (.execute (.ofText "INSERT")) counter).2

def counted : Session (Log × Scene) := (Service.step counting.parties.logged inserting).2

def idle : Session (Log × Scene) := (perform counting.parties.logged (.reconnect none) counted).2

/-- The counts are those of the second result set. -/
theorem status_of_last_run_counted :
    ∃ life, Lives uncounted life idle ∧ (∀ e ∈ life, e.parties = counting.parties) ∧
      (∀ thread, idle.status thread = .ok idle.stats) ∧
      idle.stats.rowsAffected = 5 ∧ idle.stats.lastInsertId = some 9 ∧
      ∃ earlier e later t x b, life = earlier ++ e :: later ∧ e.purpose = .task t ∧
        (∀ d ∈ later, ¬ d.RunsTask) ∧ Task.perform e.parties.logged t e.start = (x, b) ∧
        Task.Remembered e.parties t x e.start b idle.stats := by
  have hstart : LivesWith counting.parties uncounted counter := .ofCall .start _ (by decide +kernel)
  have hask : LivesWith counting.parties counter inserting :=
    .ofCall (.execute (.ofText "INSERT")) _ (by decide +kernel)
  have hwork : LivesWith counting.parties inserting counted :=
    .ofWork _ (by decide +kernel) (by decide +kernel)
  have hreconnect : LivesWith counting.parties counted idle :=
    .ofCall (.reconnect none) _ (by decide +kernel)
  obtain ⟨life, hlives, hparties⟩ := ((hstart.trans hask).trans hwork).trans hreconnect
  have hrows : idle.stats.rowsAffected = 5 := by decide +kernel
  refine ⟨life, hlives, hparties, (status_of_last_run hlives).1, hrows, by decide +kernel, ?_⟩
  rcases (status_of_last_run hlives).2 with
    ⟨-, hnone⟩ | ⟨earlier, e, later, t, x, b, hlife, ht, hlater, hrun, -, h⟩
  · rw [hnone] at hrows
    cases hrows
  · exact ⟨earlier, e, later, t, x, b, hlife, ht, hlater, hrun, h⟩

end Counting
end Session
end DatabaseSession
