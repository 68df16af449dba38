import Mathlib.Data.List.Induction
import DatabaseSession.Proofs.Log

namespace DatabaseSession

namespace Entry

/-- The task of a submission that was answered well. -/
def accepted? : Entry → Option Task
  | .asked _ (.execute t) (.outcome (.ok _)) | .asked _ (.submit t) (.outcome (.ok _))
  | .asked _ (.assign t) (.result (.ok _)) => some t
  | _ => none

/-- A cancellation of this id that was answered with yes. -/
def Cancels (id : String) (e : Entry) : Prop :=
  ∃ thread, e = .asked thread (.cancel id) (.flag true)

/-- It tells neither of a task that comes in nor of a cancellation. -/
def Plain (e : Entry) : Prop :=
  e.accepted? = none ∧ ∀ thread id b, e ≠ .asked thread (.cancel id) (.flag b)

end Entry

/-- What the task observer in this place is told by this call. -/
def Duty.told? (i : Nat) : Duty → Option (Milestone × Option String)
  | .milestone j phase id => if j = i then some (phase, id) else none
  | _ => none

namespace Log

def accepted (log : Log) : List Task := log.filterMap Entry.accepted?

/-- What the task observer in this place was told. -/
def milestones (i : Nat) (log : Log) : List (Milestone × Option String) :=
  (calls log).filterMap (Duty.told? i)

@[simp] theorem accepted_append (a b : Log) : accepted (a ++ b) = accepted a ++ accepted b := by
  simp [accepted]

theorem accepted_plain {log : Log} (h : ∀ e ∈ log, e.Plain) : accepted log = [] :=
  List.filterMap_eq_nil_iff.mpr fun e he => (h e he).1

@[simp] theorem milestones_append (i : Nat) (a b : Log) :
    milestones i (a ++ b) = milestones i a ++ milestones i b := by
  simp [milestones]

end Log

/-- What matters to the tasks in a queue: an entry of the log, or that the first of them is taken
out, with its id marked for cancellation or not. -/
inductive Occurrence where
  | entry (e : Entry)
  | taken (t : Task) (marked : Bool)

namespace Occurrence

/-- A task with this id is taken out. -/
def Takes (id : String) (o : Occurrence) : Prop :=
  ∃ t marked, o = .taken t marked ∧ t.requestId = some id

/-- Since a task with this id was taken out last, somebody cancelled the id and was told that it
waits. -/
def CancelledSince (id : String) (os : List Occurrence) : Prop :=
  ∃ before e after, os = before ++ .entry e :: after ∧ e.Cancels id ∧ ∀ o ∈ after, ¬ o.Takes id

theorem cancelledSince_concat_entry (id : String) (os : List Occurrence) (e : Entry) :
    CancelledSince id (os ++ [.entry e]) ↔ e.Cancels id ∨ CancelledSince id os := by
  constructor
  · rintro ⟨before, e', after, hos, hcancels, hafter⟩
    rcases List.eq_nil_or_concat after with rfl | ⟨init, o, rfl⟩
    · obtain ⟨-, h⟩ := List.append_inj' hos rfl
      cases h
      exact .inl hcancels
    · rw [List.concat_eq_append, ← List.cons_append, ← List.append_assoc] at hos
      obtain ⟨rfl, -⟩ := List.append_inj' hos rfl
      exact .inr ⟨before, e', init, rfl, hcancels, fun o ho => hafter o (by simp [ho])⟩
  · rintro (hcancels | ⟨before, e', after, rfl, hcancels, hafter⟩)
    · exact ⟨os, e, [], rfl, hcancels, by simp⟩
    · refine ⟨before, e', after ++ [.entry e], by simp, hcancels, ?_⟩
      intro o ho
      rcases List.mem_append.mp ho with ho | ho
      · exact hafter o ho
      · rintro ⟨t, marked, rfl, -⟩
        simp at ho

theorem cancelledSince_concat_taken (id : String) (os : List Occurrence) (t : Task)
    (marked : Bool) : CancelledSince id (os ++ [.taken t marked]) ↔
      t.requestId ≠ some id ∧ CancelledSince id os := by
  constructor
  · rintro ⟨before, e, after, hos, hcancels, hafter⟩
    rcases List.eq_nil_or_concat after with rfl | ⟨init, o, rfl⟩
    · obtain ⟨-, h⟩ := List.append_inj' hos rfl
      cases h
    · rw [List.concat_eq_append, ← List.cons_append, ← List.append_assoc] at hos
      obtain ⟨rfl, ho⟩ := List.append_inj' hos rfl
      cases ho
      refine ⟨fun hid => hafter (.taken t marked) (by simp) ⟨t, marked, rfl, hid⟩, ?_⟩
      exact ⟨before, e, init, rfl, hcancels, fun o ho => hafter o (by simp [ho])⟩
  · rintro ⟨hid, before, e, after, rfl, hcancels, hafter⟩
    refine ⟨before, e, after ++ [.taken t marked], by simp, hcancels, ?_⟩
    intro o ho
    rcases List.mem_append.mp ho with ho | ho
    · exact hafter o ho
    · rintro ⟨u, m, rfl, hu⟩
      obtain ⟨rfl, -⟩ : u = t ∧ m = marked := by simpa using ho
      exact hid hu

theorem not_cancelledSince_nil (id : String) : ¬ CancelledSince id [] := by
  rintro ⟨before, e, after, hos, -, -⟩
  simp at hos

end Occurrence

/-- The tasks that wait, first come first served, and the ids marked for cancellation. -/
structure Waitlist where
  tasks : List Task := []
  marked : List String := []

namespace Waitlist

def Waits (w : Waitlist) (id : String) : Prop := ∃ t ∈ w.tasks, t.requestId = some id

instance (w : Waitlist) (id : String) : Decidable (w.Waits id) :=
  inferInstanceAs (Decidable (∃ t ∈ w.tasks, t.requestId = some id))

def mark (w : Waitlist) (id : String) : Waitlist :=
  if id ∈ w.marked then w else { w with marked := id :: w.marked }

def isMarked (w : Waitlist) : Option String → Bool
  | some id => w.marked.contains id
  | none => false

/-- A task that goes takes its id's mark with it. -/
def unmark (w : Waitlist) : Option String → Waitlist
  | some id => { w with marked := w.marked.filter (· ≠ id) }
  | none => w

/-- What an occurrence makes of the list. It has none when the answer to a cancellation is not
whether the id waits, or when the task taken out is not the first one with its mark. -/
def next (w : Waitlist) : Occurrence → Option Waitlist
  | .entry (.asked _ (.cancel id) (.flag b)) =>
    if b = decide (w.Waits id) then some (if b then w.mark id else w) else none
  | .entry e => some { w with tasks := w.tasks ++ e.accepted?.toList }
  | .taken t marked =>
    match w.tasks with
    | [] => none
    | first :: rest =>
      if first = t ∧ marked = w.isMarked t.requestId then
        some ({ w with tasks := rest }.unmark t.requestId)
      else none

def after (w : Waitlist) (os : List Occurrence) : Option Waitlist := os.foldlM next w

theorem after_append (w : Waitlist) (os os' : List Occurrence) :
    w.after (os ++ os') = (w.after os).bind fun w' => w'.after os' := by
  simp [after, List.foldlM_append]

theorem after_cons (w : Waitlist) (o : Occurrence) (os : List Occurrence) :
    w.after (o :: os) = (w.next o).bind fun w' => w'.after os := by
  simp [after]

def incoming : Occurrence → List Task
  | .entry e => e.accepted?.toList
  | .taken _ _ => []

def outgoing : Occurrence → List Task
  | .entry _ => []
  | .taken t _ => [t]

theorem next_taken {w w' : Waitlist} {t : Task} {marked : Bool}
    (h : w.next (.taken t marked) = some w') :
    w.tasks = t :: w'.tasks ∧ marked = w.isMarked t.requestId ∧
      w' = { w with tasks := w'.tasks }.unmark t.requestId := by
  simp only [next] at h
  split at h
  · cases h
  · next first rest htasks =>
    split at h
    · next hfirst =>
      obtain ⟨rfl, hmarked⟩ := hfirst
      cases h
      cases hid : first.requestId <;> simp_all [unmark]
    · cases h

theorem next_entry (w : Waitlist) {e : Entry}
    (he : ∀ thread id b, e ≠ .asked thread (.cancel id) (.flag b)) :
    w.next (.entry e) = some { w with tasks := w.tasks ++ e.accepted?.toList } := by
  unfold next
  split
  · next thread id b heq => exact absurd (Occurrence.entry.inj heq) (he thread id b)
  · next heq => cases heq; rfl
  · next heq => cases heq

theorem after_plain (w : Waitlist) {log : Log} (h : ∀ e ∈ log, e.Plain) :
    w.after (log.map .entry) = some w := by
  induction log with
  | nil => rfl
  | cons e log ih =>
    obtain ⟨hnone, hcancel⟩ := h e (by simp)
    have hfirst : w.next (.entry e) = some w := by
      rw [next_entry w hcancel, hnone]
      simp
    rw [List.map_cons, after_cons, hfirst]
    exact ih fun e he => h e (by simp [he])

theorem next_cancel {w w' : Waitlist} {thread : Thread} {id : String} {b : Bool}
    (h : w.next (.entry (.asked thread (.cancel id) (.flag b))) = some w') :
    b = decide (w.Waits id) ∧ w' = if b then w.mark id else w := by
  unfold next at h
  split at h
  · next heq =>
    cases heq
    split at h
    · next hb =>
      cases h
      exact ⟨hb, rfl⟩
    · cases h
  · next hne heq =>
    cases heq
    exact absurd rfl (hne _ _ _)
  · next heq => cases heq

theorem mark_tasks (w : Waitlist) (id : String) : (w.mark id).tasks = w.tasks := by
  unfold mark
  split <;> rfl

theorem mem_mark (w : Waitlist) (id x : String) :
    x ∈ (w.mark id).marked ↔ x = id ∨ x ∈ w.marked := by
  unfold mark
  split
  · next hmem =>
    constructor
    · exact .inr
    · rintro (rfl | h)
      · exact hmem
      · exact h
  · exact List.mem_cons

/-- First come, first served: what waited and what came in is what went out and what waits. -/
theorem tasks_next {w w' : Waitlist} {o : Occurrence} (h : w.next o = some w') :
    w.tasks ++ incoming o = outgoing o ++ w'.tasks := by
  cases o with
  | taken t marked => simpa [incoming, outgoing] using (next_taken h).1
  | entry e =>
    by_cases he : ∃ thread id b, e = .asked thread (.cancel id) (.flag b)
    · obtain ⟨thread, id, b, rfl⟩ := he
      obtain ⟨-, rfl⟩ := next_cancel h
      cases b <;> simp [incoming, outgoing, Entry.accepted?, mark_tasks]
    · rw [next_entry w fun thread id b heq => he ⟨thread, id, b, heq⟩] at h
      cases h
      rfl

theorem tasks_after {w w' : Waitlist} {os : List Occurrence} (h : w.after os = some w') :
    w.tasks ++ os.flatMap incoming = os.flatMap outgoing ++ w'.tasks := by
  induction os generalizing w with
  | nil =>
    cases h
    simp
  | cons o os ih =>
    rw [after_cons] at h
    obtain ⟨w₁, hnext, hrest⟩ := Option.bind_eq_some_iff.mp h
    calc w.tasks ++ (o :: os).flatMap incoming
        = (w.tasks ++ incoming o) ++ os.flatMap incoming := by simp
      _ = outgoing o ++ (w₁.tasks ++ os.flatMap incoming) := by
          rw [tasks_next hnext, List.append_assoc]
      _ = outgoing o ++ (os.flatMap outgoing ++ w'.tasks) := by rw [ih hrest]
      _ = (o :: os).flatMap outgoing ++ w'.tasks := by simp

/-- An id is marked if and only if it was cancelled since a task with it was taken out. -/
theorem mem_marked_after {w : Waitlist} {os : List Occurrence} (h : after {} os = some w)
    (x : String) : x ∈ w.marked ↔ Occurrence.CancelledSince x os := by
  -- by the last occurrence: only a task that goes or a cancellation moves a mark
  induction os using List.reverseRecOn generalizing w with
  | nil =>
    cases h
    simp [Occurrence.not_cancelledSince_nil]
  | append_singleton os o ih =>
    rw [after_append] at h
    obtain ⟨w₁, hinit, hlast⟩ := Option.bind_eq_some_iff.mp h
    rw [after_cons] at hlast
    obtain ⟨w₂, hnext, hw⟩ := Option.bind_eq_some_iff.mp hlast
    cases hw
    have hbefore := ih hinit
    cases o with
    | taken t marked =>
      obtain ⟨-, -, hw⟩ := next_taken hnext
      rw [Occurrence.cancelledSince_concat_taken, ← hbefore, hw]
      cases hid : t.requestId with
      | none => simp [unmark]
      | some id =>
        have hne : some id ≠ some x ↔ x ≠ id := by simp [ne_comm]
        rw [hne, and_comm]
        simp [unmark]
    | entry e =>
      rw [Occurrence.cancelledSince_concat_entry, ← hbefore]
      by_cases he : ∃ thread id b, e = .asked thread (.cancel id) (.flag b)
      · obtain ⟨thread, id, b, rfl⟩ := he
        obtain ⟨-, hw⟩ := next_cancel hnext
        rw [hw]
        cases b with
        | false => simp [Entry.Cancels]
        | true => simp [Entry.Cancels, mem_mark, eq_comm (a := x)]
      · have hne : ∀ thread id b, e ≠ .asked thread (.cancel id) (.flag b) :=
          fun thread id b heq => he ⟨thread, id, b, heq⟩
        rw [next_entry w₁ hne] at hnext
        cases hnext
        have hcancels : ¬ e.Cancels x := fun ⟨thread, heq⟩ => hne thread x true heq
        simp [hcancels]

end Waitlist

/-- How a task is handled: the worker's loop runs it, or cancels it if its id is marked, or it is
cancelled for still being in the queue at the end. -/
inductive Handling where
  | run
  | cancel
  deriving DecidableEq

/-- A part of a session's history, with its part of the log. -/
inductive Episode where
  /-- No task is handled. -/
  | other (log : Log)
  | task (how : Handling) (t : Task) (marked : Bool) (result : Except Stop Unit) (log : Log)

namespace Episode

def log : Episode → Log
  | .other log | .task _ _ _ _ log => log

def occurrences : Episode → List Occurrence
  | .other log => log.map .entry
  | .task _ t marked _ log => .taken t marked :: log.map .entry

def handled? (how : Handling) : Episode → List Task
  | .other _ => []
  | .task how' t _ _ _ => if how' = how then [t] else []

end Episode

abbrev Chronicle := List Episode

namespace Chronicle

def log (c : Chronicle) : Log := c.flatMap Episode.log

def occurrences (c : Chronicle) : List Occurrence := c.flatMap Episode.occurrences

/-- The tasks handled, in the order in which they were. -/
def handled (c : Chronicle) : List Task := c.flatMap fun
  | .other _ => []
  | .task _ t _ _ _ => [t]

def handledBy (how : Handling) (c : Chronicle) : List Task := c.flatMap (Episode.handled? how)

@[simp] theorem log_append (a b : Chronicle) : log (a ++ b) = log a ++ log b := by simp [log]

@[simp] theorem occurrences_append (a b : Chronicle) :
    occurrences (a ++ b) = occurrences a ++ occurrences b := by simp [occurrences]

@[simp] theorem handled_append (a b : Chronicle) : handled (a ++ b) = handled a ++ handled b := by
  simp [handled]

@[simp] theorem handledBy_append (how : Handling) (a b : Chronicle) :
    handledBy how (a ++ b) = handledBy how a ++ handledBy how b := by simp [handledBy]

theorem incoming_entries (log : Log) :
    (log.map Occurrence.entry).flatMap Waitlist.incoming = Log.accepted log := by
  induction log with
  | nil => rfl
  | cons e log ih =>
    have hcons : Log.accepted (e :: log) = e.accepted?.toList ++ Log.accepted log := by
      cases he : e.accepted? <;> simp [Log.accepted, he]
    rw [List.map_cons, List.flatMap_cons, ih, hcons]
    rfl

theorem outgoing_entries (log : Log) :
    (log.map Occurrence.entry).flatMap Waitlist.outgoing = [] := by
  simp [List.flatMap_eq_nil_iff, Waitlist.outgoing]

theorem incoming_occurrences (c : Chronicle) :
    c.occurrences.flatMap Waitlist.incoming = Log.accepted c.log := by
  induction c with
  | nil => rfl
  | cons e c ih =>
    have hfirst : e.occurrences.flatMap Waitlist.incoming = Log.accepted e.log := by
      cases e with
      | other log => exact incoming_entries log
      | task how t marked x log => exact incoming_entries log
    change (e.occurrences ++ occurrences c).flatMap _ = Log.accepted (e.log ++ log c)
    rw [List.flatMap_append, hfirst, ih, Log.accepted_append]

theorem outgoing_occurrences (c : Chronicle) :
    c.occurrences.flatMap Waitlist.outgoing = c.handled := by
  induction c with
  | nil => rfl
  | cons e c ih =>
    change (e.occurrences ++ occurrences c).flatMap _ = _
    rw [List.flatMap_append, ih]
    cases e with
    | other log => simp [Episode.occurrences, outgoing_entries, handled]
    | task how t marked x log =>
      simp [Episode.occurrences, outgoing_entries, handled, Waitlist.outgoing]

/-- Every accepted task is handled once, in the order of the submissions, or still waits. -/
theorem accepted_eq_handled {c : Chronicle} {w : Waitlist}
    (h : Waitlist.after {} c.occurrences = some w) :
    Log.accepted c.log = c.handled ++ w.tasks := by
  have htasks := Waitlist.tasks_after h
  rw [incoming_occurrences, outgoing_occurrences] at htasks
  simpa using htasks

/-- A task that is taken out is marked if and only if its id was cancelled since one with that id
was taken out before. -/
theorem marked_iff {a b : Chronicle} {w : Waitlist} {how : Handling} {t : Task} {marked : Bool}
    {x : Except Stop Unit} {log : Log}
    (h : Waitlist.after {} (a ++ .task how t marked x log :: b).occurrences = some w) :
    marked = true ↔ ∃ id, t.requestId = some id ∧ Occurrence.CancelledSince id a.occurrences := by
  rw [occurrences_append, Waitlist.after_append] at h
  obtain ⟨w₁, hinit, hrest⟩ := Option.bind_eq_some_iff.mp h
  change w₁.after (.taken t marked :: _) = some w at hrest
  rw [Waitlist.after_cons] at hrest
  obtain ⟨w₂, hnext, -⟩ := Option.bind_eq_some_iff.mp hrest
  obtain ⟨-, hmarked, -⟩ := Waitlist.next_taken hnext
  rw [hmarked]
  cases hid : t.requestId with
  | none => simp [Waitlist.isMarked]
  | some id => simp [Waitlist.isMarked, ← Waitlist.mem_marked_after hinit]

end Chronicle
end DatabaseSession
