import DatabaseSession.Proofs.Delivery

namespace DatabaseSession

namespace Run

variable {ω α : Type} {P : Stop → Prop}

theorem stops_mono {Q : Stop → Prop} {m : Run ω α} (h : Stops P m) (hPQ : ∀ stop, P stop → Q stop) :
    Stops Q m := fun s stop hr => hPQ stop (h s stop hr)

theorem unfailing_hang {stop : Stop} (h : stop = .hang) : Unfailing stop := by
  subst h
  exact fun e => by simp

/-- What never fails does not stop once its panics are caught, but for never coming back. -/
theorem stops_guarded {m : Run ω α} (h : Stops Unfailing m) : Stops (· = .hang) (guarded m) := by
  intro s stop hr
  have hm := h s
  unfold guarded at hr
  rcases hms : m s with ⟨(e | q | _) | a, s'⟩ <;> rw [hms] at hr hm <;> cases hr
  · exact absurd rfl (hm _ rfl e)
  · rfl

theorem stops_panic (q : Panic) : Stops Unfailing (throw (.panic q) : Run ω α) := by
  intro s stop h
  cases h
  exact fun e => by simp

theorem stops_ensuring {m : Run ω α} {after : Run ω Unit} (hhang : P .hang) (hm : Stops P m)
    (hafter : Stops P after) : Stops P (ensuring m after) := by
  intro s stop hr
  have h := hm s
  unfold ensuring at hr
  rcases hms : m s with ⟨(e | q | _) | a, s₁⟩ <;> rw [hms] at hr h <;> dsimp only at hr
  · have h' := hafter s₁
    rcases has : after s₁ with ⟨stop' | _, s₂⟩ <;> rw [has] at hr h' <;> cases hr
    · exact h' _ rfl
    · exact h _ rfl
  · rcases has : after s₁ with ⟨(_ | _ | _) | _, s₂⟩ <;> rw [has] at hr <;> cases hr
    · exact h _ rfl
    · exact hhang
    · exact hhang
    · exact h _ rfl
  · cases hr
    exact hhang
  · have h' := hafter s₁
    rcases has : after s₁ with ⟨stop' | _, s₂⟩ <;> rw [has] at hr h' <;> cases hr
    exact h' _ rfl

theorem stops_onPanic {m : Run ω α} {after : Run ω Unit} (hhang : P .hang) (hm : Stops P m) :
    Stops P (onPanic m after) := by
  intro s stop hr
  have h := hm s
  unfold onPanic at hr
  rcases hms : m s with ⟨(e | q | _) | a, s₁⟩ <;> rw [hms] at hr h <;> dsimp only at hr
  · cases hr
    exact h _ rfl
  · rcases has : after s₁ with ⟨(_ | _ | _) | _, s₂⟩ <;> rw [has] at hr <;> cases hr
    · exact h _ rfl
    · exact hhang
    · exact hhang
    · exact h _ rfl
  · cases hr
    exact hhang
  · cases hr

end Run

open Run

variable {ω α : Type}

namespace Link

theorem stops_publish (p : Parties ω) : Stops Unfailing (publish p) :=
  stops_bind (stops_valueOr _ _) fun _ => stops_bind (stops_modify _) fun _ =>
    stops_bind (stops_valueOr _ _) fun _ => stops_bind (stops_modify _) fun _ =>
      stops_bind (stops_valueOr _ _) fun _ => stops_modify _

theorem stops_restore (p : Parties ω) : Stops Unfailing (restore p) := by
  refine stops_bind stops_get fun s => ?_
  split
  · refine stops_bind (stops_attempt _) fun r => ?_
    cases r <;> exact stops_pure _
  · exact stops_pure false

theorem stops_checkAlive (p : Parties ω) : Stops Unfailing (checkAlive p) := by
  refine stops_bind stops_get fun s => ?_
  split
  · exact stops_pure ()
  · refine stops_bind (stops_attempt _) fun r => ?_
    cases r with
    | ok _ => exact stops_pure ()
    | error e =>
      dsimp only
      split
      · exact stops_bind (stops_restore p) fun _ => stops_pure ()
      · exact stops_pure ()

theorem stops_release (p : Parties ω) : Stops Unfailing (release p) := by
  refine stops_bind stops_get fun s => ?_
  split
  · exact stops_pure ()
  · exact stops_bind (stops_set _) fun _ =>
      stops_bind (stops_forM _ fun _ => stops_always _) fun _ => stops_always _

theorem stops_drop (p : Parties ω) : Stops Unfailing (drop p) :=
  stops_ensuring (unfailing_hang rfl) (stops_release p) (stops_always _)

end Link

namespace Task

theorem stops_endInError (p : Parties ω) (e : Error) : Stops Unfailing (endInError p e) := by
  refine stops_bind stops_get fun s => ?_
  split
  · exact stops_pure ()
  · exact stops_bind (stops_modify _) fun _ => stops_emit p _ _ _ _

theorem stops_pursue (p : Parties ω) (started : Nat) (w : Work) :
    Stops Unfailing (pursue p started w) := by
  have hclock : Stops Unfailing (clockOff p started) :=
    stops_bind (stops_now p) fun _ => stops_modify _
  cases w with
  | query q =>
    refine stops_bind (stops_attempt _) fun r => stops_bind hclock fun _ => ?_
    cases r with
    | ok _ => exact stops_pure ()
    | error e => exact stops_endInError p e
  | schema action =>
    refine stops_bind (stops_attempt _) fun r => stops_bind hclock fun _ => ?_
    cases r with
    | ok schema => exact stops_emit p _ _ _ _
    | error e => exact stops_endInError p e
  | custom key => exact stops_pure ()

theorem stops_execute (p : Parties ω) : Stops Unfailing (execute p) := by
  intro s stop h
  cases hw : s.active.work with
  | query q | schema action =>
    rw [execute_builtIn p s (by rw [hw]; rfl)] at h
    exact stops_bind (stops_now p) (fun started => stops_bind (stops_emit p _ _ _ _)
      fun _ => stops_pursue p started _) s stop h
  | custom key =>
    unfold execute at h
    rw [get_bind_apply, hw] at h
    exact stops_always _ s stop h

theorem stops_cancel (p : Parties ω) : Stops Unfailing (cancel p) := by
  refine stops_bind stops_get fun s => ?_
  cases s.active.work with
  | query _ | schema _ => exact stops_bind (stops_modify _) fun _ => stops_emit p _ _ _ _
  | custom key => exact stops_always _

theorem stops_report (p : Parties ω) : Stops Unfailing (report p) := by
  refine stops_bind stops_get fun s => ?_
  cases s.active.work with
  | query _ | schema _ => exact stops_bind stops_get fun s => stops_pure _
  | custom key => exact stops_valueOr _ _

theorem stops_perform (p : Parties ω) (t : Task) : Stops Unfailing (perform p t) := by
  have hannounce : ∀ phase, Stops Unfailing (announce p phase t.requestId) := fun phase =>
    stops_mono (stops_forM _ fun _ => stops_shielded _) fun _ => unfailing_hang
  intro s stop h
  rw [perform_eq] at h
  refine stops_bind (hannounce _) (fun _ => stops_bind (stops_modify _) fun _ =>
    stops_bind ?_ fun _ => stops_bind ?_ fun _ => hannounce _) (takeUp t s) stop h
  · have hrun : Stops Unfailing (if marked t s then cancel p else execute p) := by
      split
      · exact stops_cancel p
      · exact stops_execute p
    refine stops_bind (stops_mono (stops_guarded hrun) fun _ => unfailing_hang) fun r => ?_
    cases r with
    | ok _ => exact stops_pure ()
    | error q => exact stops_mono (stops_shielded _) fun _ => unfailing_hang
  · exact stops_bind (stops_onPanic (unfailing_hang rfl) (stops_report p)) fun _ => stops_modify _

end Task

namespace Service

theorem stops_handle (p : Parties ω) (request : Request) : Stops Unfailing (handle p request) := by
  cases request with
  | close => exact stops_pure false
  | reconnect options ticket =>
    refine stops_bind (stops_bind (stops_onPanic (unfailing_hang rfl) ?_) fun r => stops_modify _)
      fun _ => stops_pure true
    exact stops_bind (stops_modify _) fun _ => stops_attempt _
  | probe =>
    exact stops_bind (stops_bind (stops_modify _) fun _ => Link.stops_checkAlive p) fun _ =>
      stops_pure true
  | task t =>
    exact stops_bind (stops_ensuring (unfailing_hang rfl) (Task.stops_perform p t)
      (stops_modify _)) fun _ => stops_pure true

theorem stops_dequeue {P : Stop → Prop} : Stops P (dequeue : Run ω (Option Request)) := by
  refine stops_bind stops_get fun s => ?_
  split
  · exact stops_pure _
  · exact stops_bind (stops_set _) fun _ => stops_pure _

theorem stops_emptyQueue (p : Parties ω) (patience : Nat) :
    Stops (· = .hang) (emptyQueue p patience) := by
  induction patience with
  | zero =>
    intro s stop h
    cases h
    rfl
  | succ patience ih =>
    refine stops_bind stops_dequeue fun r => ?_
    rcases r with _ | t | ⟨options, ticket⟩ | _ | _
    · exact stops_pure ()
    · exact stops_bind (stops_bind (stops_modify _) fun _ =>
        stops_bind (stops_shielded _) fun _ => stops_modify _) fun _ => ih
    · exact stops_bind stops_get fun _ => stops_bind (stops_modify _) fun _ => ih
    · exact ih
    · exact ih

theorem stops_windUp (p : Parties ω) : Stops Unfailing (windUp p) :=
  stops_bind (stops_modify _) fun _ =>
    stops_bind (stops_mono (stops_emptyQueue p _) fun _ => unfailing_hang) fun _ =>
      stops_bind (Link.stops_release p) fun _ => stops_modify _

end Service
end DatabaseSession
