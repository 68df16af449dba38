import Mathlib.Data.List.Forall2
import DatabaseSession.Proofs.Interleaving
import DatabaseSession.Rehearsal.Cast

namespace DatabaseSession

open Run Session

variable {ω : Type}

/-- A run as an observer sees it. -/
def Task.span (t : Task) : List (Milestone × Option String) :=
  [(.started, t.requestId), (.finished, t.requestId)]

namespace Log

/-- The deliveries come in one batch for each of the tasks, in their order, and each is for the
task's own sink and under its own id. -/
def InTurn (tasks : List Task) (sent : List (Sink × Event)) : Prop :=
  ∃ batches, sent = batches.flatten ∧
    List.Forall₂ (fun t batch => ∀ d ∈ batch, d.1 = t.courier.sink ∧ d.2.requestId = t.requestId)
      tasks batches

theorem deliveries_other {log : Log} (h : ∀ d ∈ calls log, d.isForTasks = false) :
    deliveries log = [] := by
  apply List.eq_nil_iff_forall_not_mem.mpr
  rintro ⟨sink, e⟩ hmem
  have hcall := h _ (mem_calls_of_deliveries hmem)
  simp [Duty.isForTasks] at hcall

theorem milestones_other {log : Log} (h : ∀ d ∈ calls log, d.isForTasks = false) (i : Nat) :
    milestones i log = [] := by
  refine List.filterMap_eq_nil_iff.mpr fun d hd => ?_
  have hcall := h d hd
  cases d <;> simp_all [Duty.isForTasks, Duty.told?]

end Log

namespace Chronicle

variable {p : Parties ω} {c : Chronicle}

theorem split_outcomes {a b : List (Handling × Except Stop Unit)} (h : c.outcomes = a ++ b) :
    ∃ c₁ c₂ : Chronicle, c = c₁ ++ c₂ ∧ c₁.outcomes = a ∧ c₂.outcomes = b := by
  induction c generalizing a with
  | nil =>
    obtain ⟨rfl, rfl⟩ := List.append_eq_nil_iff.mp h.symm
    exact ⟨[], [], rfl, rfl, rfl⟩
  | cons e c ih =>
    cases e with
    | other log =>
      obtain ⟨c₁, c₂, rfl, ha, hb⟩ := ih (a := a) h
      exact ⟨.other log :: c₁, c₂, rfl, ha, hb⟩
    | task how t marked x log =>
      cases a with
      | nil => exact ⟨[], _, rfl, rfl, h⟩
      | cons o a =>
        obtain ⟨rfl, hrest⟩ := List.cons.inj h
        obtain ⟨c₁, c₂, rfl, rfl, hb⟩ := ih hrest
        exact ⟨.task how t marked x log :: c₁, c₂, rfl, rfl, hb⟩

theorem handledBy_of_outcomes (how how' : Handling) (h : ∀ o ∈ c.outcomes, o.1 = how) :
    c.handledBy how' = if how = how' then c.handled else [] := by
  induction c with
  | nil => simp [handledBy, handled]
  | cons e c ih =>
    cases e with
    | other log => exact ih h
    | task how₁ t marked x log =>
      have hhead : how₁ = how := h (how₁, x) (List.mem_cons_self ..)
      have hrest := ih fun o ho => h o (List.mem_cons_of_mem _ ho)
      change Episode.handled? how' (.task how₁ t marked x log) ++ handledBy how' c = _
      rw [hrest, hhead]
      by_cases heq : how = how' <;> simp [Episode.handled?, handled, heq]

theorem inTurn (h : ∀ e ∈ c, e.Tells p) : Log.InTurn c.handled (Log.deliveries c.log) := by
  induction c with
  | nil => exact ⟨[], rfl, .nil⟩
  | cons e c ih =>
    obtain ⟨batches, hsent, hbatches⟩ := ih fun e he => h e (List.mem_cons_of_mem _ he)
    have hfirst := h e (List.mem_cons_self ..)
    have hlog : Log.deliveries (log (e :: c)) =
        Log.deliveries e.log ++ Log.deliveries (log c) := by
      simp [log]
    cases e with
    | other new =>
      refine ⟨batches, ?_, hbatches⟩
      rw [hlog, hsent, Episode.log, Log.deliveries_other hfirst]
      rfl
    | task how t marked x new =>
      have haddressed : ∀ d ∈ Log.deliveries new,
          d.1 = t.courier.sink ∧ d.2.requestId = t.requestId := by
        rintro ⟨sink, event⟩ hmem
        have hcall := Log.mem_calls_of_deliveries hmem
        cases how with
        | run => exact (hfirst.1 _ hcall).addressed
        | cancel => exact Duty.Serves.addressed (.inl (hfirst.1 _ hcall))
      refine ⟨Log.deliveries new :: batches, ?_, .cons haddressed hbatches⟩
      rw [hlog, hsent]
      rfl

theorem milestones_cons (i : Nat) (e : Episode) (c : Chronicle) :
    Log.milestones i (log (e :: c)) = Log.milestones i e.log ++ Log.milestones i (log c) := by
  simp [log]

theorem Steady.milestones (hsteady : c.Steady) (h : ∀ e ∈ c, e.Tells p) {i : Nat}
    (hi : i < p.taskObservers.length) :
    Log.milestones i c.log = (c.handledBy .run).flatMap Task.span := by
  induction c with
  | nil => rfl
  | cons e c ih =>
    have hfirst := h e (List.mem_cons_self ..)
    have htells : ∀ e ∈ c, e.Tells p := fun e he => h e (List.mem_cons_of_mem _ he)
    cases e with
    | other new =>
      rw [milestones_cons, Episode.log, Log.milestones_other hfirst, ih hsteady htells]
      rfl
    | task how t marked x new =>
      have hhead : (how, x) = (.run, .ok ()) := hsteady (how, x) (List.mem_cons_self ..)
      cases hhead
      have htold := hfirst.2.told (by simp) i hi
      rw [milestones_cons, Episode.log, htold,
        ih (fun o ho => hsteady o (List.mem_cons_of_mem _ ho)) htells]
      rfl

theorem Clears.milestones (hclears : c.Clears) (h : ∀ e ∈ c, e.Tells p) (i : Nat) :
    Log.milestones i c.log = [] := by
  induction c with
  | nil => rfl
  | cons e c ih =>
    have hfirst := h e (List.mem_cons_self ..)
    have htells : ∀ e ∈ c, e.Tells p := fun e he => h e (List.mem_cons_of_mem _ he)
    cases e with
    | other new =>
      rw [milestones_cons, Episode.log, Log.milestones_other hfirst, ih hclears htells]
      rfl
    | task how t marked x new =>
      have hhead : (how, x) = (.cancel, .ok ()) := hclears (how, x) (List.mem_cons_self ..)
      cases hhead
      rw [milestones_cons, Episode.log, Log.milestones_of_worksFor hfirst.1,
        ih (fun o ho => hclears o (List.mem_cons_of_mem _ ho)) htells]
      rfl

/-- The run of a task whose report panics is seen to start and not to finish. -/
theorem milestones_panicked {q : Panic} (houtcomes : c.outcomes = [(.run, .error (.panic q))])
    (h : ∀ e ∈ c, e.Tells p) :
    ∃ t key, c.handledBy .run = [t] ∧ t.work = .custom key ∧
      .returned (.reportErrand key) (.error (.panic q)) ∈ c.log ∧
      ∀ i < p.taskObservers.length, Log.milestones i c.log = [(.started, t.requestId)] := by
  induction c with
  | nil => cases houtcomes
  | cons e c ih =>
    have hfirst := h e (List.mem_cons_self ..)
    have htells : ∀ e ∈ c, e.Tells p := fun e he => h e (List.mem_cons_of_mem _ he)
    cases e with
    | other new =>
      obtain ⟨t, key, hrun, hwork, hmem, htold⟩ := ih houtcomes htells
      refine ⟨t, key, hrun, hwork, List.mem_append_right _ hmem, fun i hi => ?_⟩
      rw [milestones_cons, Episode.log, Log.milestones_other hfirst, htold i hi]
      rfl
    | task how t marked x new =>
      obtain ⟨hhead, hnone⟩ := List.cons.inj houtcomes
      cases hhead
      have hclears : Clears c := by
        intro o ho
        change outcomes c = [] at hnone
        simp [hnone] at ho
      have hrest : handledBy .run c = [] :=
        handledBy_of_outcomes .cancel .run fun o ho => by rw [hclears o ho]
      obtain ⟨key, hwork, hmem⟩ := hfirst.2.blamed q rfl
      refine ⟨t, key, ?_, hwork, List.mem_append_left _ hmem, fun i hi => ?_⟩
      · change [t] ++ handledBy .run c = [t]
        rw [hrest]
        rfl
      · rw [milestones_cons, Episode.log, hfirst.2.told (by simp) i hi, hclears.milestones htells]
        rfl

/-- First the runs, of which the last may have panicked, and then what was cancelled. -/
theorem Wound.split (h : c.Wound) : ∃ ran dropped : Chronicle, c = ran ++ dropped ∧ dropped.Clears ∧
    (ran.Steady ∨ ∃ (done last : Chronicle) (q : Panic), ran = done ++ last ∧ done.Steady ∧
      last.outcomes = [(.run, .error (.panic q))]) := by
  obtain ⟨done, last, dropped, houtcomes, hdone, hlast, hdropped⟩ := h
  obtain ⟨c₁, c₂, rfl, hran, rfl⟩ := split_outcomes houtcomes
  refine ⟨c₁, c₂, rfl, hdropped, ?_⟩
  rcases hlast with rfl | ⟨q, rfl⟩
  · left
    intro o ho
    rw [hran, List.append_nil] at ho
    exact hdone o ho
  · obtain ⟨a, b, rfl, rfl, hb⟩ := split_outcomes hran
    exact .inr ⟨a, b, q, rfl, hdone, hb⟩

/-- What an observer is told when the worker is through: of every run from its start to its finish,
but for a last one whose own report panicked. -/
theorem Wound.milestones (h : c.Wound) (htells : ∀ e ∈ c, e.Tells p) :
    (∀ i < p.taskObservers.length,
      Log.milestones i c.log = (c.handledBy .run).flatMap Task.span) ∨
    ∃ done t key q, c.handledBy .run = done ++ [t] ∧ t.work = .custom key ∧
      .returned (.reportErrand key) (.error (.panic q)) ∈ c.log ∧
      ∀ i < p.taskObservers.length,
        Log.milestones i c.log = done.flatMap Task.span ++ [(.started, t.requestId)] := by
  obtain ⟨ran, dropped, rfl, hclears, hran⟩ := h.split
  have hran_tells : ∀ e ∈ ran, e.Tells p := fun e he => htells e (List.mem_append_left _ he)
  have hquiet : ∀ i, Log.milestones i dropped.log = [] := fun i =>
    hclears.milestones (fun e he => htells e (List.mem_append_right _ he)) i
  have hnone : dropped.handledBy .run = [] :=
    handledBy_of_outcomes .cancel .run fun o ho => by rw [hclears o ho]
  rcases hran with hsteady | ⟨done, last, q, rfl, hsteady, hlast⟩
  · left
    intro i hi
    rw [log_append, Log.milestones_append, handledBy_append, hquiet, hnone,
      hsteady.milestones hran_tells hi, List.append_nil, List.append_nil]
  · obtain ⟨t, key, hrun, hwork, hmem, htold⟩ := milestones_panicked hlast fun e he =>
      hran_tells e (List.mem_append_right _ he)
    refine .inr ⟨done.handledBy .run, t, key, q, ?_, hwork, ?_, fun i hi => ?_⟩
    · rw [handledBy_append, handledBy_append, hnone, hrun, List.append_nil]
    · simp [hmem]
    · rw [log_append, log_append, Log.milestones_append, Log.milestones_append, hquiet,
        htold i hi, hsteady.milestones (fun e he => hran_tells e (List.mem_append_left _ he)) hi,
        List.append_nil]

theorem Wound.handled_eq (h : c.Wound) : c.handled = c.handledBy .run ++ c.handledBy .cancel := by
  obtain ⟨ran, dropped, rfl, hclears, hran⟩ := h.split
  have hdropped : ∀ o ∈ dropped.outcomes, o.1 = .cancel := fun o ho => by rw [hclears o ho]
  have hruns : ∀ o ∈ ran.outcomes, o.1 = .run := by
    intro o ho
    rcases hran with hsteady | ⟨done, last, q, rfl, hsteady, hlast⟩
    · rw [hsteady o ho]
    · rw [outcomes_append] at ho
      rcases List.mem_append.mp ho with ho | ho
      · rw [hsteady o ho]
      · rw [hlast] at ho
        rw [List.mem_singleton.mp ho]
  rw [handled_append, handledBy_append, handledBy_append,
    handledBy_of_outcomes .run .run hruns, handledBy_of_outcomes .run .cancel hruns,
    handledBy_of_outcomes .cancel .run hdropped, handledBy_of_outcomes .cancel .cancel hdropped]
  simp

end Chronicle

namespace Session

namespace Stricken

open Rehearsal

/-- A task observer, and a custom task whose report panics. -/
def cast : Cast where
  taskObservers := [none]
  assignments := [{ id := some "die", statsPanic := some {} }]

def reading (id : String) : Task :=
  { work := .query (.ofText "SELECT 1"), courier := { requestId := some id, sink := .channel 1 } }

def dying : Task := { work := .custom 0, courier := { requestId := some "die" } }

def created : Session (Log × Scene) := .create "s1" "Mock" {} {} ([], cast.scene {} [])

def started : Session (Log × Scene) := (start cast.parties.logged created).2

/-- Three tasks wait, and the worker will not survive the second. -/
def busy : Session (Log × Scene) :=
  ((started.ask cast.parties (.execute (reading "a"))).ask cast.parties (.assign dying)).ask
    cast.parties (.execute (reading "b"))

def struck : Session (Log × Scene) :=
  (Service.takeNext cast.parties.logged (Service.takeNext cast.parties.logged busy).2).2

def ended : Session (Log × Scene) :=
  (Service.leave cast.parties.logged (some {})
    (struck.ask cast.parties (.execute (reading "c")))).2

end Stricken
end Session
end DatabaseSession
