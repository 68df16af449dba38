import DatabaseSession.Proofs.Stops
import DatabaseSession.Proofs.Usage

namespace DatabaseSession

namespace Log

/-- The teardown does not panic: neither a hook at the close nor the release. -/
structure Orderly (log : Log) : Prop where
  closes : ∀ i q, .returned (.onClose i) (.error (.panic q)) ∉ log
  releases : ∀ q, .returned .release (.error (.panic q)) ∉ log

instance (log : Log) : Decidable (Orderly log) :=
  decidable_of_iff (log.all fun
    | .returned (.onClose _) (.error (.panic _)) | .returned .release (.error (.panic _)) => false
    | _ => true) <| by
    constructor
    · intro h
      rw [List.all_eq_true] at h
      exact ⟨fun i q hm => by simpa using h _ hm, fun q hm => by simpa using h _ hm⟩
    · intro h
      rw [List.all_eq_true]
      intro e he
      split
      · exact absurd he (h.closes _ _)
      · exact absurd he (h.releases _)
      · rfl

theorem Orderly.left {a b : Log} (h : Orderly (a ++ b)) : Orderly a :=
  ⟨fun i q hm => h.closes i q (List.mem_append_left b hm),
    fun q hm => h.releases q (List.mem_append_left b hm)⟩

theorem Orderly.right {a b : Log} (h : Orderly (a ++ b)) : Orderly b :=
  ⟨fun i q hm => h.closes i q (List.mem_append_right a hm),
    fun q hm => h.releases q (List.mem_append_right a hm)⟩

/-- Nothing has been torn down. -/
def Untouched (log : Log) : Prop := ∀ d ∈ calls log, d.isTeardown = false

/-- The calls by which a backend with so many hooks is torn down. -/
def teardown (hooks : Nat) : List Duty := (List.range hooks).map .onClose ++ [.release]

/-- The backend was released once, right after each of its hooks was closed once, and nothing was
asked of it afterwards but to be disposed of. -/
def ReleasedOnce (hooks : Nat) (log : Log) : Prop :=
  ∃ before after, calls log = before ++ (teardown hooks ++ after) ∧
    (∀ d ∈ before, d.isTeardown = false) ∧ ∀ d ∈ after, d = .dispose

theorem ReleasedOnce.append {hooks : Nat} {log new : Log} (h : ReleasedOnce hooks log)
    (hnew : ∀ d ∈ calls new, d = .dispose) : ReleasedOnce hooks (log ++ new) := by
  obtain ⟨before, after, hcalls, hbefore, hafter⟩ := h
  refine ⟨before, after ++ calls new, by simp [hcalls], hbefore, ?_⟩
  intro d hd
  exact (List.mem_append.mp hd).elim (hafter d) (hnew d)

theorem Untouched.append {log new : Log} (h : Untouched log)
    (hnew : ∀ d ∈ calls new, d.isTeardown = false) : Untouched (log ++ new) := by
  intro d hd
  rw [calls_append] at hd
  exact (List.mem_append.mp hd).elim (h d) (hnew d)

theorem Untouched.released {hooks : Nat} {log new : Log} (h : Untouched log)
    (hnew : calls new = teardown hooks) : ReleasedOnce hooks (log ++ new) :=
  ⟨calls log, [], by simp [hnew], h, by simp⟩

end Log

namespace Run

open Course Session

variable {ω α β : Type}

/-- A Hoare triple: unless the teardown panics, the computation leads from states of one kind to
outcomes of another, if it comes back. -/
def Triple (P : Session (Log × ω) → Prop) (m : Run (Log × ω) α)
    (Q : Except Stop α → Session (Log × ω) → Prop) : Prop :=
  ∀ s x s', m s = (x, s') → x ≠ .error .hang →
    ∃ new, s'.log = s.log ++ new ∧ (Log.Orderly new → P s → Q x s')

variable {P R T : Session (Log × ω) → Prop} {Q : Except Stop α → Session (Log × ω) → Prop}

theorem triple_mono {P' : Session (Log × ω) → Prop}
    {Q' : Except Stop α → Session (Log × ω) → Prop} {m : Run (Log × ω) α} (h : Triple P m Q)
    (hP : ∀ s, P' s → P s) (hQ : ∀ x s, Q x s → Q' x s) : Triple P' m Q' := by
  intro s x s' hr hx
  obtain ⟨new, hlog, hnew⟩ := h s x s' hr hx
  exact ⟨new, hlog, fun ho hs => hQ x s' (hnew ho (hP s hs))⟩

theorem triple_of_follows {m : Run (Log × ω) α} (h : Follows (inUse ω) m)
    (hP : ∀ {s s'}, InUse s s' → P s → R s') : Triple P m fun _ => R := by
  intro s x s' hr hx
  have hs := h s
  rw [hr] at hs
  have huse : InUse s s' := hs.goes hx
  obtain ⟨new, hlog, -⟩ := huse.log
  exact ⟨new, hlog, fun _ => hP huse⟩

theorem triple_back {m : Run (Log × ω) α} (h : Triple P m Q) :
    Triple P m fun x s => x ≠ .error .hang ∧ Q x s := by
  intro s x s' hr hx
  obtain ⟨new, hlog, hnew⟩ := h s x s' hr hx
  exact ⟨new, hlog, fun ho hs => ⟨hx, hnew ho hs⟩⟩

theorem triple_value {m : Run (Log × ω) α} (h : Triple P m Q) (hm : Stops (· = .hang) m) :
    Triple P m fun x s => (∃ a, x = .ok a) ∧ Q x s := by
  intro s x s' hr hx
  obtain ⟨new, hlog, hnew⟩ := h s x s' hr hx
  refine ⟨new, hlog, fun ho hs => ⟨?_, hnew ho hs⟩⟩
  rcases x with stop | a
  · exact absurd (congrArg Except.error (hm s stop (by rw [hr]))) hx
  · exact ⟨a, rfl⟩

theorem triple_unfailing {m : Run (Log × ω) α} (h : Triple P m Q) (hm : Stops Unfailing m) :
    Triple P m fun x s => (∀ e, x ≠ .error (.error e)) ∧ Q x s := by
  intro s x s' hr hx
  obtain ⟨new, hlog, hnew⟩ := h s x s' hr hx
  refine ⟨new, hlog, fun ho hs => ⟨?_, hnew ho hs⟩⟩
  rintro e rfl
  exact hm s (.error e) (by rw [hr]) e rfl

theorem triple_bind {m : Run (Log × ω) β} {f : β → Run (Log × ω) α}
    {M : Except Stop β → Session (Log × ω) → Prop} (hm : Triple P m M)
    (hf : ∀ b, Triple (M (.ok b)) (f b) Q)
    (hstop : ∀ stop s, M (.error stop) s → Q (.error stop) s) : Triple P (m >>= f) Q := by
  intro s x s' hr hx
  rw [bind_apply] at hr
  rcases hms : m s with ⟨stop | b, s₁⟩ <;> rw [hms] at hr
  · cases hr
    obtain ⟨new, hlog, hnew⟩ := hm s _ _ hms (by simpa using hx)
    exact ⟨new, hlog, fun ho hs => hstop stop _ (hnew ho hs)⟩
  · obtain ⟨new, hlog, hnew⟩ := hm s _ _ hms (by simp)
    obtain ⟨new', hlog', hnew'⟩ := hf b s₁ x s' hr hx
    refine ⟨new ++ new', by rw [hlog', hlog, List.append_assoc], fun ho hs => ?_⟩
    exact hnew' ho.right (hnew ho.left hs)

theorem triple_value_bind {m : Run (Log × ω) β} {f : β → Run (Log × ω) α}
    {M : Except Stop β → Session (Log × ω) → Prop}
    (hm : Triple P m fun x s => (∃ b, x = .ok b) ∧ M x s)
    (hf : ∀ b, Triple (M (.ok b)) (f b) Q) : Triple P (m >>= f) Q := by
  refine triple_bind hm (fun b => triple_mono (hf b) (fun _ hs => hs.2) fun _ _ h => h) ?_
  rintro stop s ⟨⟨b, hb⟩, -⟩
  cases hb

theorem triple_pure (a : α) (h : ∀ s, P s → Q (.ok a) s) : Triple P (pure a) Q := by
  intro s x s' hr _
  cases hr
  exact ⟨[], by simp, fun _ => h s⟩

theorem triple_stop (stop : Stop) (h : ∀ s, P s → Q (.error stop) s) :
    Triple P (throw stop) Q := by
  intro s x s' hr _
  cases hr
  exact ⟨[], by simp, fun _ => h s⟩

theorem triple_hang : Triple P (hang : Run (Log × ω) α) Q := by
  intro s x s' hr hx
  cases hr
  exact absurd rfl hx

theorem triple_modify {f : Session (Log × ω) → Session (Log × ω)}
    (hout : ∀ s, (f s).outside = s.outside) (h : ∀ s, P s → R (f s)) :
    Triple P (modify f) fun x s => (∃ a, x = .ok a) ∧ R s := by
  intro s x s' hr _
  cases hr
  exact ⟨[], by simp [log, hout], fun _ hs => ⟨⟨_, rfl⟩, h s hs⟩⟩

theorem triple_get {f : Session (Log × ω) → Run (Log × ω) α}
    (h : ∀ s, Triple (fun s' => s' = s ∧ P s) (f s) Q) : Triple P (get >>= f) Q := by
  intro s x s' hr hx
  obtain ⟨new, hlog, hnew⟩ := h s s x s' hr hx
  exact ⟨new, hlog, fun ho hs => hnew ho ⟨rfl, hs⟩⟩

theorem triple_attempt {m : Run (Log × ω) α} (hm : Triple P m Q) :
    Triple P (attempt m) fun x s => match x with
      | .ok (.ok a) => Q (.ok a) s
      | .ok (.error e) => Q (.error (.error e)) s
      | .error stop => Q (.error stop) s := by
  intro s x s' hr hx
  unfold attempt at hr
  rcases hms : m s with ⟨(e | q | _) | a, s₁⟩ <;> rw [hms] at hr <;> cases hr
  case error.hang => exact absurd rfl hx
  all_goals exact hm s _ _ hms (by simp)

theorem triple_guarded {m : Run (Log × ω) α} (hm : Triple P m Q) :
    Triple P (guarded m) fun x s => match x with
      | .ok (.ok a) => Q (.ok a) s
      | .ok (.error q) => Q (.error (.panic q)) s
      | .error stop => Q (.error stop) s := by
  intro s x s' hr hx
  unfold guarded at hr
  rcases hms : m s with ⟨(e | q | _) | a, s₁⟩ <;> rw [hms] at hr <;> cases hr
  case error.hang => exact absurd rfl hx
  all_goals exact hm s _ _ hms (by simp)

/-- Where the whole comes back, both parts have. -/
theorem ensuring_runs {m : Run ω α} {after : Run ω Unit} {s s' : Session ω} {x : Except Stop α}
    (hr : ensuring m after s = (x, s')) (hx : x ≠ .error .hang) :
    ∃ y s₁ z, m s = (y, s₁) ∧ y ≠ .error .hang ∧ after s₁ = (z, s') ∧ z ≠ .error .hang := by
  unfold ensuring at hr
  rcases hms : m s with ⟨(e | q | _) | a, s₁⟩ <;> rw [hms] at hr <;> dsimp only at hr
  · rcases has : after s₁ with ⟨stop | _, s₂⟩ <;> rw [has] at hr <;> cases hr
    · exact ⟨_, s₁, _, rfl, by simp, has, by simpa using hx⟩
    · exact ⟨_, s₁, _, rfl, by simp, has, by simp⟩
  · rcases has : after s₁ with ⟨(_ | _ | _) | _, s₂⟩ <;> rw [has] at hr <;> cases hr
    · exact ⟨_, s₁, _, rfl, by simp, has, by simp⟩
    · exact absurd rfl hx
    · exact absurd rfl hx
    · exact ⟨_, s₁, _, rfl, by simp, has, by simp⟩
  · cases hr
    exact absurd rfl hx
  · rcases has : after s₁ with ⟨stop | _, s₂⟩ <;> rw [has] at hr <;> cases hr
    · exact ⟨_, s₁, _, rfl, by simp, has, by simpa using hx⟩
    · exact ⟨_, s₁, _, rfl, by simp, has, by simp⟩

theorem triple_ensuring {m : Run (Log × ω) α} {after : Run (Log × ω) Unit}
    (hm : Triple P m fun _ => R) (hafter : Triple R after fun _ => T) :
    Triple P (ensuring m after) fun _ => T := by
  intro s x s' hr hx
  obtain ⟨y, s₁, z, hms, hy, has, hz⟩ := ensuring_runs hr hx
  obtain ⟨new, hlog, hnew⟩ := hm s y s₁ hms hy
  obtain ⟨new', hlog', hnew'⟩ := hafter s₁ z s' has hz
  refine ⟨new ++ new', by rw [hlog', hlog, List.append_assoc], fun ho hs => ?_⟩
  exact hnew' ho.right (hnew ho.left hs)

theorem triple_onPanic {m : Run (Log × ω) α} {after : Run (Log × ω) Unit} (hm : Triple P m Q)
    (hafter : ∀ q, Triple (Q (.error (.panic q))) after fun _ => R) :
    Triple P (onPanic m after) fun x s => match x with
      | .error (.panic _) => R s
      | x => Q x s := by
  intro s x s' hr hx
  unfold onPanic at hr
  rcases hms : m s with ⟨(e | q | _) | a, s₁⟩ <;> rw [hms] at hr <;> dsimp only at hr
  · cases hr
    exact hm s _ _ hms (by simp)
  · obtain ⟨new, hlog, hnew⟩ := hm s _ _ hms (by simp)
    have hmore : ∀ {z s₂}, after s₁ = (z, s₂) → z ≠ .error .hang →
        ∃ new, s₂.log = s.log ++ new ∧ (Log.Orderly new → P s → R s₂) := by
      intro z s₂ has hz
      obtain ⟨new', hlog', hnew'⟩ := hafter q s₁ z s₂ has hz
      refine ⟨new ++ new', by rw [hlog', hlog, List.append_assoc], fun ho hs => ?_⟩
      exact hnew' ho.right (hnew ho.left hs)
    rcases has : after s₁ with ⟨(_ | _ | _) | _, s₂⟩ <;> rw [has] at hr <;> cases hr
    · exact hmore has (by simp)
    · exact absurd rfl hx
    · exact absurd rfl hx
    · exact hmore has (by simp)
  · cases hr
    exact absurd rfl hx
  · cases hr
    exact hm s _ _ hms (by simp)

end Run

open Course Run Session

variable {ω : Type}

namespace Session

structure Held (s : Session (Log × ω)) : Prop where
  released : s.link.released = false
  log : Log.Untouched s.log

structure Gone (hooks : Nat) (s : Session (Log × ω)) : Prop where
  released : s.link.released = true
  log : Log.ReleasedOnce hooks s.log

theorem Held.inUse {s s' : Session (Log × ω)} (h : Held s) (huse : InUse s s') : Held s' := by
  obtain ⟨new, hlog, hnew⟩ := huse.log
  exact ⟨huse.released.trans h.released, by rw [hlog]; exact h.log.append hnew⟩

/-- A property that the queue has no part in, nor whoever closes a threaded session. -/
def Stable (F : Session ω → Prop) : Prop :=
  ∀ {s s' : Session ω}, s'.mailbox.receiving = s.mailbox.receiving →
    (s'.life = s.life ∨ s.life = .threaded ∧ s'.life = .closed) → F s → F s'

theorem Stable.attends {F : Session ω → Prop} (hF : Stable F) {s s' : Session ω}
    (h : Attends s s') (hs : F s) : F s' :=
  hF h.receiving (h.life.imp_right fun hl => ⟨hl.1, hl.2.1⟩) hs

/-- The session is out of its owner's hands. -/
def Retired (s : Session ω) : Prop := s.life = .closed ∨ s.life = .threaded

theorem retired_stable : Stable (Retired : Session ω → Prop) := by
  intro s s' _ hlife h
  rcases hlife with hl | ⟨_, hl⟩
  · exact h.imp hl.trans hl.trans
  · exact .inl hl

def Unattended (s : Session ω) : Prop := s.mailbox.receiving = false

theorem unattended_stable : Stable (Unattended : Session ω → Prop) := fun hrecv _ h =>
  hrecv.trans h

theorem Stable.and {F G : Session ω → Prop} (hF : Stable F) (hG : Stable G) :
    Stable fun s => F s ∧ G s := fun hrecv hlife h => ⟨hF hrecv hlife h.1, hG hrecv hlife h.2⟩

end Session

namespace Link

/-- These are called on, one after the other, unless the teardown panics. -/
def Undergoes (ds : List Duty) (m : Run (Log × ω) Unit) : Prop :=
  ∀ s x s', m s = (x, s') → x ≠ .error .hang → Attends s s' ∧ s'.link = s.link ∧
    ∃ new, s'.log = s.log ++ new ∧ (Log.Orderly new → x = .ok () ∧ Log.calls new = ds)

theorem undergoes_bind {ds ds' : List Duty} {m m' : Run (Log × ω) Unit} (hm : Undergoes ds m)
    (hm' : Undergoes ds' m') : Undergoes (ds ++ ds') (m >>= fun _ => m') := by
  intro s x s' hr hx
  rw [bind_apply] at hr
  rcases hms : m s with ⟨stop | _, s₁⟩ <;> rw [hms] at hr
  · cases hr
    obtain ⟨ha, hlink, new, hlog, hnew⟩ := hm s _ _ hms hx
    exact ⟨ha, hlink, new, hlog, fun ho => nomatch (hnew ho).1⟩
  · obtain ⟨ha, hlink, new, hlog, hnew⟩ := hm s _ _ hms (by simp)
    obtain ⟨ha', hlink', new', hlog', hnew'⟩ := hm' s₁ x s' hr hx
    refine ⟨ha.trans ha', hlink'.trans hlink, new ++ new',
      by rw [hlog', hlog, List.append_assoc], fun ho => ⟨(hnew' ho.right).1, ?_⟩⟩
    rw [Log.calls_append, (hnew ho.left).2, (hnew' ho.right).2]

theorem undergoes_always (p : Parties ω) (d : Duty) (m : Play ω Unit)
    (hd : ∀ {log : Log} {q : Panic}, Log.Orderly log → .returned d (.error (.panic q)) ∉ log) :
    Undergoes [d] (always (party p.logged (m.logged d))) := by
  intro s x s' hr hx
  obtain ⟨new, ht⟩ := party_logged p d m s
  rw [always, valueOr_apply] at hr
  rcases hms : party p.logged (m.logged d) s with ⟨(e | q | _) | _, s₁⟩ <;> rw [hms] at hr ht <;>
    cases hr
  · exact ⟨ht.toAttends, ht.link, new, ht.log, fun _ => ⟨rfl, ht.calls⟩⟩
  · exact ⟨ht.toAttends, ht.link, new, ht.log, fun ho => absurd ht.panicked (hd ho)⟩
  · exact absurd rfl hx
  · exact ⟨ht.toAttends, ht.link, new, ht.log, fun _ => ⟨rfl, ht.calls⟩⟩

theorem undergoes_closes (p : Parties ω) (hooks : List (Hook ω)) (shift : Nat) :
    Undergoes ((List.range hooks.length).map fun i => .onClose (i + shift))
      ((hooks.mapIdx fun i => Hook.logged (i + shift)).forM fun hook =>
        always (party p.logged hook.onClose)) := by
  induction hooks generalizing shift with
  | nil =>
    intro s x s' hr _
    cases hr
    exact ⟨.refl s, rfl, [], by simp, fun _ => ⟨rfl, rfl⟩⟩
  | cons hook hooks ih =>
    rw [List.mapIdx_cons, List.length_cons, List.range_succ_eq_map, List.map_cons, List.map_map]
    have hshift : ∀ i, i + 1 + shift = i + (shift + 1) := fun i => by omega
    simp only [Function.comp_def, Nat.succ_eq_add_one, hshift]
    exact undergoes_bind (undergoes_always p _ hook.onClose fun ho => ho.closes _ _)
      (ih (shift + 1))

theorem undergoes_teardown (p : Parties ω) :
    Undergoes (Log.teardown p.hooks.length) (do
      p.logged.hooks.forM fun hook => always (party p.logged hook.onClose)
      always (party p.logged p.logged.backend.release)) :=
  undergoes_bind (undergoes_closes p p.hooks 0)
    (undergoes_always p .release p.backend.release fun ho => ho.releases _)

variable {F : Session (Log × ω) → Prop}

/-- A release tears down what is still held, and leaves alone what is gone. -/
theorem release_triple (p : Parties ω) (hF : Stable F) :
    Triple (fun s => (Held s ∨ Gone p.hooks.length s) ∧ F s) (release p.logged) fun x s =>
      x = .ok () ∧ Gone p.hooks.length s ∧ F s := by
  intro s x s' hr hx
  unfold release at hr
  rw [get_bind_apply] at hr
  cases hrel : s.link.released with
  | true =>
    rw [hrel] at hr
    cases hr
    refine ⟨[], by simp, fun _ hs => ⟨rfl, hs.1.resolve_left fun h => ?_, hs.2⟩⟩
    simp [h.released] at hrel
  | false =>
    -- the mark is set first: whoever comes next finds nothing to release
    rw [hrel] at hr
    obtain ⟨ha, hlink, new, hlog, hnew⟩ :=
      undergoes_teardown p { s with link := { s.link with released := true } } x s' hr hx
    refine ⟨new, hlog, fun ho hs => ?_⟩
    have hheld : Held s := hs.1.resolve_right fun h => by simp [h.released] at hrel
    obtain ⟨hok, hcalls⟩ := hnew ho
    refine ⟨hok, ⟨by rw [hlink], ?_⟩, hF.attends ha (hF (s := s) rfl (.inl rfl) hs.2)⟩
    rw [hlog]
    exact Log.Untouched.released hheld.log hcalls

theorem dispose_triple (p : Parties ω) (hF : Stable F) {hooks : Nat} :
    Triple (fun s => Gone hooks s ∧ F s) (always (party p.logged p.logged.backend.dispose))
      fun _ s => Gone hooks s ∧ F s := by
  intro s x s' hr hx
  obtain ⟨new, ht⟩ := party_logged p .dispose p.backend.dispose s
  have hstate : (party p.logged (p.backend.dispose.logged .dispose) s).2 = s' :=
    (always_snd _ s).symm.trans (congrArg Prod.snd hr)
  rw [hstate] at ht
  refine ⟨new, ht.log, fun _ hs => ⟨⟨by rw [ht.link]; exact hs.1.released, ?_⟩,
    hF.attends ht.toAttends hs.2⟩⟩
  rw [ht.log]
  exact hs.1.log.append (by simp [ht.calls])

theorem drop_triple (p : Parties ω) (hF : Stable F) :
    Triple (fun s => (Held s ∨ Gone p.hooks.length s) ∧ F s) (drop p.logged) fun _ s =>
      Gone p.hooks.length s ∧ F s :=
  triple_ensuring (triple_mono (release_triple p hF) (fun _ hs => hs) fun _ _ h => h.2)
    (dispose_triple p hF)

end Link

namespace Service

variable {F : Session (Log × ω) → Prop}

theorem emptyQueue_triple (p : Parties ω) (hF : Stable F) (patience : Nat) :
    Triple (fun s => Held s ∧ F s) (emptyQueue p.logged patience) fun _ s => Held s ∧ F s := by
  induction patience with
  | zero => exact triple_hang
  | succ patience ih =>
    have hdequeue : Triple (fun s : Session (Log × ω) => Held s ∧ F s) dequeue
        fun _ s => Held s ∧ F s := by
      intro s x s' hr _
      unfold dequeue at hr
      rw [get_bind_apply] at hr
      cases hq : s.mailbox.queue with
      | nil =>
        rw [hq] at hr
        cases hr
        exact ⟨[], by simp, fun _ hs => hs⟩
      | cons request rest =>
        rw [hq] at hr
        cases hr
        exact ⟨[], by simp [Session.log], fun _ hs => ⟨⟨hs.1.released, hs.1.log⟩,
          hF (s := s) rfl (.inl rfl) hs.2⟩⟩
    have huse : ∀ {s s' : Session (Log × ω)}, InUse s s' → Held s ∧ F s → Held s' ∧ F s' :=
      fun h hs => ⟨hs.1.inUse h, hF.attends h.toAttends hs.2⟩
    -- tasks are cancelled and reconnects refused, and nothing of that touches the backend
    refine triple_bind hdequeue (fun r => ?_) fun _ _ h => h
    rcases r with _ | t | ⟨options, ticket⟩ | _ | _
    · exact triple_pure () fun _ hs => hs
    · exact triple_bind (triple_of_follows (inUse_discardTask p t) huse) (fun _ => ih)
        fun _ _ h => h
    · exact triple_bind (triple_of_follows follows_get huse)
        (fun s => triple_bind (triple_of_follows (inUse_reply ticket _) huse) (fun _ => ih)
          fun _ _ h => h) fun _ _ h => h
    · exact ih
    · exact ih

/-- When the worker winds up, it tears down what is still held, and takes no more requests. -/
theorem windUp_triple (p : Parties ω) :
    Triple (fun s => Held s ∧ Retired s) (windUp p.logged) fun x s =>
      (∃ a, x = .ok a) ∧ Gone p.hooks.length s ∧ Retired s ∧ Unattended s := by
  refine triple_value_bind (triple_modify (R := fun s => Held s ∧ Retired s) (fun _ => rfl)
    fun s hs => ⟨⟨hs.1.released, hs.1.log⟩, hs.2⟩) fun _ =>
    triple_value_bind (triple_value (emptyQueue_triple p retired_stable _)
      (stops_emptyQueue p.logged _)) fun _ =>
    triple_value_bind (M := fun _ s => Gone p.hooks.length s ∧ Retired s)
      (triple_mono (Link.release_triple p retired_stable) (fun _ hs => ⟨.inl hs.1, hs.2⟩)
        fun x _ h => ⟨⟨(), h.1⟩, h.2⟩) fun _ => ?_
  exact triple_modify (fun _ => rfl) fun s hs => ⟨⟨hs.1.released, hs.1.log⟩, hs.2, rfl⟩

/-- However the worker's thread ends, the link is gone with it. -/
theorem exit_triple (p : Parties ω) {P : Session (Log × ω) → Prop} {m : Run (Log × ω) Unit}
    (hm : Triple P m fun _ s => (Held s ∨ Gone p.hooks.length s) ∧ Retired s)
    (hstop : Stops Unfailing m) :
    Triple P (exit p.logged m) fun x s =>
      (∃ a, x = .ok a) ∧ Gone p.hooks.length s ∧ Retired s ∧ Unattended s := by
  have hend : Triple P (guarded (ensuring m (Link.drop p.logged))) fun _ s =>
      Gone p.hooks.length s ∧ Retired s := by
    refine triple_mono (triple_guarded (triple_ensuring hm (Link.drop_triple p retired_stable)))
      (fun _ hs => hs) fun x s h => ?_
    rcases x with _ | _ | _ <;> exact h
  refine triple_value_bind (triple_value hend (stops_guarded (stops_ensuring (unfailing_hang rfl)
    hstop (Link.stops_drop p.logged)))) fun _ => ?_
  exact triple_modify (fun _ => rfl) fun s hs => ⟨⟨hs.1.released, hs.1.log⟩, hs.2, rfl⟩

end Service
end DatabaseSession
