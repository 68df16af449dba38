import DatabaseSession.Backend

namespace DatabaseSession

namespace Turn

variable {ω κ α β : Type}

/-- The turn ends so, well or not, whatever it is answered. While it waits for an answer others may
change its state by `R`. -/
def Ensures (R : ω → ω → Prop) (Q : α → ω → Prop) (E : Stop → ω → Prop) : Turn ω α → Prop
  | .done (.ok a) w => Q a w
  | .done (.error stop) w => E stop w
  | .ask _ _ w next => ∀ a w', R w w' → (next a w').Ensures R Q E

/-- A way that the turn can go. -/
inductive Plays (R : ω → ω → Prop) : Turn ω α → Except Stop α → ω → Prop where
  | done (x : Except Stop α) (w : ω) : Plays R (.done x w) x w
  | ask {thread : Thread} {call : Call} {w w' w'' : ω} {next : Answer → ω → Turn ω α} {a : Answer}
      {x : Except Stop α} (h : R w w') (hrest : Plays R (next a w') x w'') :
      Plays R (.ask thread call w next) x w''

/-- How a turn ends, well or not. -/
def Fares (Q : α → ω → Prop) (E : Stop → ω → Prop) : Except Stop α → ω → Prop
  | .ok a, w => Q a w
  | .error stop, w => E stop w

variable {R : ω → ω → Prop} {Q Q' : α → ω → Prop} {E E' : Stop → ω → Prop}

theorem Ensures.fares {t : Turn ω α} (ht : t.Ensures R Q E) {x : Except Stop α} {w : ω}
    (h : t.Plays R x w) : Fares Q E x w := by
  induction h with
  | done x w => cases x <;> exact ht
  | ask h _ ih => exact ih (ht _ _ h)

/-- A way through one turn and the next goes through the first, and through the next if the first
comes to a value. -/
theorem Plays.of_andThen {f : α → ω → Turn ω β} {t : Turn ω α} {x : Except Stop β} {w' : ω}
    (h : (t.andThen f).Plays R x w') :
    (∃ a w, t.Plays R (.ok a) w ∧ (f a w).Plays R x w') ∨
      ∃ stop, x = .error stop ∧ t.Plays R (.error stop) w' := by
  induction t with
  | done y w =>
    cases y with
    | ok a => exact .inl ⟨a, w, .done _ _, h⟩
    | error stop =>
      cases h
      exact .inr ⟨stop, rfl, .done _ _⟩
  | ask thread call w next ih =>
    cases h with
    | ask hR hrest =>
      rcases ih _ _ hrest with ⟨a, w₁, ht, hf⟩ | ⟨stop, rfl, ht⟩
      · exact .inl ⟨a, w₁, .ask hR ht, hf⟩
      · exact .inr ⟨stop, rfl, .ask hR ht⟩

/-- A way through an attempt and what follows it, if it comes back, goes on from how the attempt
ended. -/
theorem Plays.of_attempt_andThen {f : Except Error α → ω → Turn ω β} {t : Turn ω α}
    {x : Except Error β} {w' : ω} (h : (t.attempt.andThen f).Plays R (x.mapError .error) w') :
    ∃ y w, t.Plays R (Except.mapError .error y) w ∧ (f y w).Plays R (x.mapError .error) w' := by
  induction t with
  | done y w =>
    rcases y with (e | q | _) | a
    · exact ⟨.error e, w, .done _ _, h⟩
    · rcases x with e | b <;> cases h
    · rcases x with e | b <;> cases h
    · exact ⟨.ok a, w, .done _ _, h⟩
  | ask thread call w next ih =>
    cases h with
    | ask hR hrest =>
      obtain ⟨y, w₁, ht, hf⟩ := ih _ _ hrest
      exact ⟨y, w₁, .ask hR ht, hf⟩

theorem Ensures.of_plays {I : ω → Prop} {t : Turn ω α}
    (ht : t.Ensures R (fun _ => I) fun _ => I) {x : Except Stop α} {w : ω} (h : t.Plays R x w) :
    I w := by
  have hw := ht.fares h
  cases x <;> exact hw

theorem Ensures.mono {R' : ω → ω → Prop} (hR : ∀ w w', R' w w' → R w w')
    (hQ : ∀ a w, Q a w → Q' a w) (hE : ∀ stop w, E stop w → E' stop w) {t : Turn ω α}
    (ht : t.Ensures R Q E) : t.Ensures R' Q' E' := by
  induction t with
  | done x w =>
    cases x with
    | ok a => exact hQ a w ht
    | error stop => exact hE stop w ht
  | ask thread call w next ih => exact fun a w' h => ih a w' (ht a w' (hR w w' h))

theorem Ensures.andThen {Q' : β → ω → Prop} {f : α → ω → Turn ω β} {t : Turn ω α}
    (ht : t.Ensures R Q E) (hf : ∀ a w, Q a w → (f a w).Ensures R Q' E) :
    (t.andThen f).Ensures R Q' E := by
  induction t with
  | done x w =>
    cases x with
    | ok a => exact hf a w ht
    | error stop => exact ht
  | ask thread call w next ih => exact fun a w' h => ih a w' (ht a w' h)

theorem Ensures.and {t : Turn ω α} (h : t.Ensures R Q E) (h' : t.Ensures R Q' E') :
    t.Ensures R (fun a w => Q a w ∧ Q' a w) fun stop w => E stop w ∧ E' stop w := by
  induction t with
  | done x w => cases x <;> exact ⟨h, h'⟩
  | ask thread call w next ih => exact fun a w' hR => ih a w' (h a w' hR) (h' a w' hR)

theorem Ensures.trivial (t : Turn ω α) : t.Ensures R (fun _ _ => True) fun _ _ => True := by
  induction t with
  | done x w => cases x <;> exact True.intro
  | ask thread call w next ih => exact fun a w' _ => ih a w'

/-- An error is handed on as a value, so the turn stops otherwise or not at all. -/
theorem Ensures.attempted {t : Turn ω α} (ht : t.Ensures R Q E) :
    t.attempt.Ensures R (fun x => Fares Q E (x.mapError .error))
      fun stop w => (∀ e, stop ≠ .error e) ∧ E stop w := by
  induction t with
  | done x w =>
    rcases x with (e | q | _) | a
    · exact ht
    · exact ⟨by simp, ht⟩
    · exact ⟨by simp, ht⟩
    · exact ht
  | ask thread call w next ih => exact fun a w' h => ih a w' (ht a w' h)

theorem Ensures.attempt {I : ω → Prop} {t : Turn ω α}
    (ht : t.Ensures R (fun _ => I) fun _ => I) : t.attempt.Ensures R (fun _ => I) fun _ => I := by
  induction t with
  | done x w => rcases x with (_ | _ | _) | _ <;> exact ht
  | ask thread call w next ih => exact fun a w' h => ih a w' (ht a w' h)

/-- A turn over a part of a state. `F` says of the rest what does not change meanwhile. -/
theorem Ensures.focus {look : ω → κ} {put : κ → ω → ω} {S : κ → κ → Prop} {F : ω → Prop}
    {Q : α → κ → Prop} {E : Stop → κ → Prop} {Q' : α → ω → Prop} {E' : Stop → ω → Prop}
    (hR : ∀ k w w', F w → R (put k w) w' → F w' ∧ S k (look w'))
    (hQ : ∀ a k w, F w → Q a k → Q' a (put k w)) (hE : ∀ s k w, F w → E s k → E' s (put k w))
    {t : Turn κ α} (ht : t.Ensures S Q E) {w : ω} (hw : F w) :
    (t.focus look put w).Ensures R Q' E' := by
  induction t generalizing w with
  | done x k =>
    cases x with
    | ok a => exact hQ a k w hw ht
    | error stop => exact hE stop k w hw ht
  | ask thread call k next ih =>
    intro a w' h
    obtain ⟨hw', hk⟩ := hR k w w' hw h
    exact ih a (look w') (ht a (look w') hk) hw'

def wentWell : Turn ω α → Bool
  | .done (.ok _) _ => true
  | _ => false

theorem exists_of_wentWell {t : Turn ω α} (h : t.wentWell = true) : ∃ a w, t = .done (.ok a) w := by
  unfold wentWell at h
  split at h
  · exact ⟨_, _, rfl⟩
  · cases h

/-- The turn ends well and so, if nobody else changes its state. -/
abbrev Yields (Q : α → ω → Prop) (t : Turn ω α) : Prop :=
  t.Ensures (fun w w' => w' = w) Q fun _ _ => False

theorem Yields.mono (hQ : ∀ a w, Q a w → Q' a w) {t : Turn ω α} (ht : t.Yields Q) : t.Yields Q' :=
  Ensures.mono (fun _ _ h => h) hQ (fun _ _ h => h) ht

theorem Yields.focus {look : ω → κ} {put : κ → ω → ω} {F : ω → Prop} {Q : α → κ → Prop}
    {Q' : α → ω → Prop} (hput : ∀ k w, F w → F (put k w) ∧ look (put k w) = k)
    (hQ : ∀ a k w, F w → Q a k → Q' a (put k w)) {t : Turn κ α} (ht : t.Yields Q) {w : ω}
    (hw : F w) : (t.focus look put w).Yields Q' := by
  refine Ensures.focus (F := F) ?_ hQ (fun _ _ _ _ h => h) ht hw
  rintro k w w' hw rfl
  exact hput k w hw

end Turn

namespace Play

variable {ω α β : Type} {R : ω → ω → Prop} {P I J : ω → Prop}

/-- From such a state the move leads to such a one, however it ends. -/
def Leads (R : ω → ω → Prop) (P : ω → Prop) (m : Play ω α) (I : ω → Prop) : Prop :=
  ∀ w, P w → (m w).Ensures R (fun _ => I) fun _ => I

abbrev Keeps (R : ω → ω → Prop) (I : ω → Prop) (m : Play ω α) : Prop := Leads R I m I

theorem Leads.mono {m : Play ω α} (h : Leads R P m I) {P' I' : ω → Prop} (hP : ∀ w, P' w → P w)
    (hI : ∀ w, I w → I' w) : Leads R P' m I' :=
  fun w hw => (h w (hP w hw)).mono (fun _ _ h => h) (fun _ => hI) fun _ => hI

theorem bind_of_done {m : Play ω α} {f : α → Play ω β} {a : α} {w w' : ω}
    (h : m w = .done (.ok a) w') : (m >>= f) w = f a w' := by
  change (m w).andThen f = f a w'
  rw [h]
  rfl

theorem leads_pure (a : α) (h : ∀ w, P w → I w) : Leads R P (pure a : Play ω α) I := h

theorem leads_fail (e : Error) (h : ∀ w, P w → I w) : Leads R P (fail e : Play ω α) I := h

theorem leads_modify {f : ω → ω} (h : ∀ w, P w → I (f w)) : Leads R P (modify f) I := h

theorem Leads.bind {m : Play ω α} {f : α → Play ω β} (hm : Leads R P m J)
    (hf : ∀ a, Leads R J (f a) I) (h : ∀ w, J w → I w) : Leads R P (m >>= f) I := by
  intro w hw
  have hfirst := (hm w hw).mono (fun _ _ h => h) (fun _ _ h => h) fun _ => h
  exact hfirst.andThen fun a w => hf a w

theorem Keeps.bind {m : Play ω α} {f : α → Play ω β} (hm : Keeps R I m)
    (hf : ∀ a, Keeps R I (f a)) : Keeps R I (m >>= f) :=
  Leads.bind hm hf fun _ h => h

theorem Leads.attempt {m : Play ω α} (hm : Leads R P m I) : Leads R P (attempt m) I :=
  fun w hw => (hm w hw).attempt

theorem keeps_forM {f : β → Play ω Unit} (h : ∀ b, Keeps R I (f b)) (bs : List β) :
    Keeps R I (bs.forM f) := by
  induction bs with
  | nil => exact leads_pure () fun _ h => h
  | cons b bs ih => exact (h b).bind fun _ => ih

end Play

namespace Backend

open Play

variable {ω : Type} {R : ω → ω → Prop} {I J D : ω → Prop} {fetchRow : Play ω (Option Row)}
  {nextResult : Play ω Bool}

/-- Rows are read while `I` holds; if that stops, `J` does. -/
theorem ensures_readOutRows (hfetch : ∀ w, I w → (fetchRow w).Ensures R (fun _ => I) fun _ => J)
    (hJ : ∀ w, I w → J w) (patience : Nat) :
    ∀ w, I w → (readOutRows fetchRow patience w).Ensures R (fun _ => I) fun _ => J := by
  induction patience with
  | zero => exact hJ
  | succ patience ih =>
    refine fun w hw => Turn.Ensures.andThen (hfetch w hw) fun row w' hw' => ?_
    cases row with
    | none => exact hw'
    | some row => exact ih w' hw'

/-- The sets are read out only where there is said to be no further one, which leaves `D`. -/
theorem ensures_readOutSets (hfetch : ∀ w, I w → (fetchRow w).Ensures R (fun _ => I) fun _ => J)
    (hnext : ∀ w, I w → (nextResult w).Ensures R
      (fun more w' => (more = true → I w') ∧ (more = false → D w')) fun _ => J)
    (hJ : ∀ w, I w → J w) (rows patience : Nat) :
    ∀ w, I w → (readOutSets fetchRow nextResult rows patience w).Ensures R (fun _ => D)
      fun _ => J := by
  induction patience with
  | zero => exact hJ
  | succ patience ih =>
    refine fun w hw => Turn.Ensures.andThen (hnext w hw) fun more w' hw' => ?_
    cases more with
    | false => exact hw'.2 rfl
    | true =>
      exact Turn.Ensures.andThen (ensures_readOutRows hfetch hJ rows w' (hw'.1 rfl)) fun _ => ih

theorem ensures_readOut (hfetch : ∀ w, I w → (fetchRow w).Ensures R (fun _ => I) fun _ => J)
    (hnext : ∀ w, I w → (nextResult w).Ensures R
      (fun more w' => (more = true → I w') ∧ (more = false → D w')) fun _ => J)
    (hJ : ∀ w, I w → J w) (patience : Nat) {w : ω} (hw : I w) :
    (readOut fetchRow nextResult patience w).Ensures R (fun _ => D) fun _ => J :=
  Turn.Ensures.andThen (ensures_readOutRows hfetch hJ patience w hw) fun _ =>
    ensures_readOutSets hfetch hnext hJ patience patience

theorem keeps_readOut (hfetch : Keeps R I fetchRow) (hnext : Keeps R I nextResult)
    (patience : Nat) : Keeps R I (readOut fetchRow nextResult patience) := by
  refine fun w hw => ensures_readOut hfetch (fun w hw => ?_) (fun _ h => h) patience hw
  exact (hnext w hw).mono (fun _ _ h => h) (fun _ _ h => ⟨fun _ => h, fun _ => h⟩) fun _ _ h => h

end Backend
end DatabaseSession
