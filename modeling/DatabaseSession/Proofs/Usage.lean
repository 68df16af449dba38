import DatabaseSession.Proofs.Growth

namespace DatabaseSession

/-- What is done to a backend at its end. -/
def Duty.isTeardown : Duty → Bool
  | .release | .onClose _ | .dispose => true
  | _ => false

namespace Session

variable {ω : Type} {P : Duty → Prop} {s s' : Session (Log × ω)}

/-- Between two states the session was used, and nothing was called on but duties of this kind. -/
structure Uses (P : Duty → Prop) (s s' : Session (Log × ω)) : Prop extends Attends s s' where
  log : ∃ new, s'.log = s.log ++ new ∧ ∀ d ∈ Log.calls new, P d
  released : s'.link.released = s.link.released
  terminated : s'.terminated = s.terminated

/-- A session is used and not torn down. -/
abbrev InUse (s s' : Session (Log × ω)) : Prop := Uses (fun d => d.isTeardown = false) s s'

/-- Nobody is called on. -/
abbrev Quiet (s s' : Session (Log × ω)) : Prop := Uses (fun _ => False) s s'

namespace Uses

theorem trans {a b c : Session (Log × ω)} (h : Uses P a b) (h' : Uses P b c) : Uses P a c where
  toAttends := h.toAttends.trans h'.toAttends
  log := by
    obtain ⟨new, hlog, hd⟩ := h.log
    obtain ⟨new', hlog', hd'⟩ := h'.log
    refine ⟨new ++ new', by rw [hlog', hlog, List.append_assoc], ?_⟩
    intro d hmem
    rw [Log.calls_append] at hmem
    exact (List.mem_append.mp hmem).elim (hd d) (hd' d)
  released := h'.released.trans h.released
  terminated := h'.terminated.trans h.terminated

theorem mono {Q : Duty → Prop} (h : Uses P s s') (hPQ : ∀ d, P d → Q d) : Uses Q s s' := by
  obtain ⟨new, hlog, hd⟩ := h.log
  exact ⟨h.toAttends, ⟨new, hlog, fun d hmem => hPQ d (hd d hmem)⟩, h.released, h.terminated⟩

theorem of_eq (hout : s'.outside = s.outside) (hreleased : s'.link.released = s.link.released)
    (hterminated : s'.terminated = s.terminated) (hattends : Attends s s') : Uses P s s' :=
  ⟨hattends, ⟨[], by simp [Session.log, hout], by simp⟩, hreleased, hterminated⟩

theorem refl (s : Session (Log × ω)) : Uses P s s := .of_eq rfl rfl rfl (.refl s)

theorem ofFiled (h : Filed s s') : Uses P s s' :=
  .of_eq h.outside (by rw [h.link]) h.terminated h.toAttends

theorem ofInterlude {asides : Log} (h : Interlude asides s s') : Uses P s s' :=
  ⟨h.toAttends, ⟨asides, h.log, by simp [Log.calls_asides h.aside]⟩, by rw [h.link], h.terminated⟩

theorem ofNote (s : Session (Log × ω)) {e : Entry} (he : ∀ d ∈ Log.calls [e], P d) :
    Uses P s (s.note e) :=
  ⟨.of_eq rfl rfl, ⟨[e], rfl, he⟩, rfl, rfl⟩

end Uses
end Session

def Course.inUse (ω : Type) : Course (Log × ω) := .ofGrowth Session.InUse .refl .trans

open Course Run Session

variable {ω α : Type}

/-- Whatever is called on but the teardown, and whoever uses the session meanwhile. -/
theorem Session.inUse_growth (p : Parties ω) :
    Growth p (fun d => d.isTeardown = false) InUse where
  trans := .trans
  unmoved h := .of_eq h.outside h.released h.terminated
    ⟨h.receiving, fun r hr => by rw [h.queue]; exact hr, .inl h.life⟩
  elsewhere s w := .ofInterlude (.ofOutside s w)
  called s _ hd := .ofNote s (by simpa using hd)
  returned s _ _ := .ofNote s (by simp)
  asked ha := by
    obtain ⟨asides, hi⟩ := answer_interlude p _ _ _ _ _ ha
    exact .ofInterlude hi
  unanswered ha := .ofInterlude (unanswered_interlude p _ _ _ _ ha)

theorem Session.inUse_emits (p : Parties ω) : Emits p InUse :=
  (inUse_growth p).emits (fun _ _ => .of_eq rfl rfl rfl (.of_eq rfl rfl)) fun _ _ => rfl

theorem Duty.isTeardown_of_isConnecting {kind : Attempt → Bool} {d : Duty}
    (hd : d.isConnecting kind = true) : d.isTeardown = false := by
  cases d <;> simp_all [isConnecting, isTeardown]

theorem Duty.isTeardown_of_isPublishing {d : Duty} (hd : d.isPublishing = true) :
    d.isTeardown = false := by
  cases d <;> simp_all [isPublishing, isTeardown]

theorem Duty.isTeardown_of_isTaskwork {d : Duty} (hd : d.isTaskwork = true) :
    d.isTeardown = false := by
  cases d <;> simp_all [isTaskwork, isConnecting, isReading, isSchema, isErrand, isTeardown]

theorem Course.inUse_modify {f : Session (Log × ω) → Session (Log × ω)}
    (hout : ∀ s, (f s).outside = s.outside)
    (hreleased : ∀ s, (f s).link.released = s.link.released)
    (hterminated : ∀ s, (f s).terminated = s.terminated) (hattends : ∀ s, Attends s (f s)) :
    Follows (inUse ω) (modify f : Run (Log × ω) Unit) :=
  follows_modify fun s => .of_eq (hout s) (hreleased s) (hterminated s) (hattends s)

namespace Link

theorem inUse_covers (p : Parties ω) : Covers (inUse ω) p fun _ => true :=
  grows_covers (inUse_growth p) fun _ => Duty.isTeardown_of_isConnecting

theorem inUse_connect (p : Parties ω) : Follows (inUse ω) (connect p.logged) :=
  follows_connect (inUse_covers p) rfl

theorem inUse_reconnect (p : Parties ω) (cause : ReconnectCause) :
    Follows (inUse ω) (reconnect p.logged cause) :=
  follows_reconnect (inUse_covers p) rfl

theorem inUse_publish (p : Parties ω) : Follows (inUse ω) (publish p.logged) :=
  grows_publish (inUse_growth p) fun _ => Duty.isTeardown_of_isPublishing

end Link

namespace Task

theorem inUse_perform (p : Parties ω) (t : Task) : Follows (inUse ω) (perform p.logged t) := by
  have hgrowth := inUse_growth p
  refine hgrowth.follows fun s => ?_
  have htake : InUse s (takeUp t s) := .of_eq rfl rfl rfl (.of_eq rfl rfl)
  exact htake.trans (grows_perform hgrowth (inUse_emits p)
    (fun _ => Duty.isTeardown_of_isTaskwork) (fun _ _ => rfl) s)

end Task

namespace Service

theorem inUse_reply (ticket : Nat) (r : Option (Except Error Unit)) :
    Follows (inUse ω) (reply ticket r) :=
  inUse_modify (fun _ => rfl) (fun _ => rfl) (fun _ => rfl) fun _ => ⟨rfl, fun _ h => h, .inl rfl⟩

theorem dropTask_filed (t : Task) (s : Session ω) : Filed s (dropTask t s) := by
  unfold dropTask
  split
  · exact giveUpHandle_filed s
  · exact .refl s

theorem inUse_dropTask (t : Task) :
    Follows (inUse ω) (modify (dropTask t) : Run (Log × ω) Unit) :=
  follows_modify fun s => .ofFiled (dropTask_filed t s)

theorem inUse_discardTask (p : Parties ω) (t : Task) :
    Follows (inUse ω) (discardTask p.logged t) := by
  have hcancel : Follows (inUse ω) (Task.cancel p.logged) :=
    Task.grows_cancel (inUse_growth p) (inUse_emits p) fun _ => Duty.isTeardown_of_isTaskwork rfl
  exact follows_bind
    (inUse_modify (fun _ => rfl) (fun _ => rfl) (fun _ => rfl) fun _ => .of_eq rfl rfl)
    fun _ => follows_bind (follows_shielded hcancel) fun _ => inUse_dropTask t

theorem inUse_adopted (options : Option Options) :
    Follows (inUse ω) (modify (Session.adopted options) : Run (Log × ω) Unit) := by
  cases options with
  | none => exact follows_modify fun s => .refl s
  | some o =>
    exact inUse_modify (fun _ => rfl) (fun _ => rfl) (fun _ => rfl) fun _ => .of_eq rfl rfl

theorem inUse_handle (p : Parties ω) (request : Request) :
    Follows (inUse ω) (handle p.logged request) := by
  have hgrowth := inUse_growth p
  cases request with
  | close => exact follows_pure false
  | reconnect options ticket =>
    exact follows_bind (grows_handleReconnect hgrowth
      (fun _ => Duty.isTeardown_of_isConnecting) (fun _ => Duty.isTeardown_of_isPublishing)
      options ticket) fun _ => follows_pure true
  | probe =>
    have hclear : ∀ s : Session (Log × ω), InUse s (clearProbe s) := fun _ =>
      .of_eq rfl rfl rfl ⟨rfl, fun _ h => h, .inl rfl⟩
    exact follows_bind (grows_handleProbe hgrowth hclear rfl fun _ =>
      Duty.isTeardown_of_isConnecting) fun _ => follows_pure true
  | task t =>
    exact follows_bind (follows_ensuring (Task.inUse_perform p t) (inUse_dropTask t) id) fun _ =>
      follows_pure true

end Service
end DatabaseSession
