import DatabaseSession.Run

namespace DatabaseSession

/-- What a computation may do to a session: one relation for when it comes back, with a value or an
error, a narrower one for when it panics, and one for when it never comes back. -/
structure Course (ω : Type) where
  Goes : Session ω → Session ω → Prop
  Panics : Session ω → Session ω → Prop
  Sticks : Session ω → Session ω → Prop
  refl (s : Session ω) : Goes s s
  trans {a b c : Session ω} : Goes a b → Goes b c → Goes a c
  goes {a b : Session ω} : Panics a b → Goes a b
  panics {a b c : Session ω} : Goes a b → Panics b c → Panics a c
  panicked {a b c : Session ω} : Panics a b → Goes b c → Panics a c
  sticks {a b c : Session ω} : Goes a b → Sticks b c → Sticks a c

namespace Course

variable {ω α : Type}

/-- A course that makes no difference between a panic and other endings. -/
def plain (Goes Sticks : Session ω → Session ω → Prop) (refl : ∀ s, Goes s s)
    (trans : ∀ {a b c}, Goes a b → Goes b c → Goes a c)
    (sticks : ∀ {a b c}, Goes a b → Sticks b c → Sticks a c) : Course ω :=
  ⟨Goes, Goes, Sticks, refl, trans, id, trans, trans, sticks⟩

/-- A relation that holds whether or not the computation comes back. -/
def ofGrowth (G : Session ω → Session ω → Prop) (refl : ∀ s, G s s)
    (trans : ∀ {a b c}, G a b → G b c → G a c) : Course ω :=
  plain G G refl trans trans

def both (c d : Course ω) : Course ω where
  Goes s s' := c.Goes s s' ∧ d.Goes s s'
  Panics s s' := c.Panics s s' ∧ d.Panics s s'
  Sticks s s' := c.Sticks s s' ∧ d.Sticks s s'
  refl s := ⟨c.refl s, d.refl s⟩
  trans h h' := ⟨c.trans h.1 h'.1, d.trans h.2 h'.2⟩
  goes h := ⟨c.goes h.1, d.goes h.2⟩
  panics h h' := ⟨c.panics h.1 h'.1, d.panics h.2 h'.2⟩
  panicked h h' := ⟨c.panicked h.1 h'.1, d.panicked h.2 h'.2⟩
  sticks h h' := ⟨c.sticks h.1 h'.1, d.sticks h.2 h'.2⟩

def Allows (c : Course ω) (x : Except Stop α) (s s' : Session ω) : Prop :=
  match x with
  | .error .hang => c.Sticks s s'
  | .error (.panic _) => c.Panics s s'
  | _ => c.Goes s s'

variable {c : Course ω} {x : Except Stop α} {s s' : Session ω}

theorem allows_of_panics (h : c.Panics s s') (hs : c.Sticks s s') : c.Allows x s s' := by
  unfold Allows
  split
  · exact hs
  · exact h
  · exact c.goes h

theorem allows_of_ne_hang (hx : x ≠ .error .hang) (h : c.Panics s s') : c.Allows x s s' := by
  unfold Allows
  split
  · exact absurd rfl hx
  · exact h
  · exact c.goes h

theorem Allows.goes (h : c.Allows x s s') (hx : x ≠ .error .hang) : c.Goes s s' := by
  unfold Allows at h
  split at h
  · exact absurd rfl hx
  · exact c.goes h
  · exact h

theorem Allows.grown {G : Session ω → Session ω → Prop} {refl : ∀ s, G s s}
    {trans : ∀ {a b c}, G a b → G b c → G a c} (h : (ofGrowth G refl trans).Allows x s s') :
    G s s' := by
  rcases x with (_ | _ | _) | _ <;> exact h

theorem Allows.goes_of_sticks (h : c.Allows x s s') (hc : ∀ {a b}, c.Sticks a b → c.Goes a b) :
    c.Goes s s' := by
  rcases x with (_ | _ | _) | _
  · exact h
  · exact c.goes h
  · exact hc h
  · exact h

theorem Allows.after {a : Session ω} (h : c.Allows x s s') (hs : c.Goes a s) :
    c.Allows x a s' := by
  rcases x with (_ | _ | _) | _
  · exact c.trans hs h
  · exact c.panics hs h
  · exact c.sticks hs h
  · exact c.trans hs h

end Course

namespace Run

variable {ω α β : Type}

theorem bind_apply (m : Run ω α) (f : α → Run ω β) (s : Session ω) :
    (m >>= f) s = match m s with
      | (.ok a, s') => f a s'
      | (.error stop, s') => (.error stop, s') := by
  change (match m s with | (x, s') => ExceptT.bindCont f x s') = _
  rcases m s with ⟨_ | a, s'⟩ <;> rfl

@[simp] theorem pure_apply (a : α) (s : Session ω) : (pure a : Run ω α) s = (.ok a, s) := rfl

@[simp] theorem raise_apply (e : Error) (s : Session ω) :
    (raise e : Run ω α) s = (.error (.error e), s) := rfl

@[simp] theorem modify_apply (f : Session ω → Session ω) (s : Session ω) :
    (modify f : Run ω Unit) s = (.ok (), f s) := rfl

@[simp] theorem set_apply (s' s : Session ω) : (set s' : Run ω Unit) s = (.ok (), s') := rfl

theorem get_bind_apply (f : Session ω → Run ω α) (s : Session ω) : (get >>= f) s = f s s := rfl

theorem now_bind_apply (p : Parties ω) (f : Nat → Run ω α) (s : Session ω) :
    (now p >>= f) s = f (p.clock s.outside) s := rfl

theorem valueOr_apply (default : α) (m : Run ω α) (s : Session ω) :
    valueOr default m s = match m s with
      | (.error (.error _), s') => (.ok default, s')
      | r => r := by
  unfold valueOr
  rw [bind_apply, attempt]
  rcases m s with ⟨(e | q | _) | a, s'⟩ <;> rfl

theorem always_snd (m : Run ω Unit) (s : Session ω) : (always m s).2 = (m s).2 := by
  rw [always, valueOr_apply]
  rcases m s with ⟨(e | q | _) | _, s'⟩ <;> rfl

theorem bind_of_ok {m : Run ω α} {s s' : Session ω} {a : α} (h : m s = (.ok a, s'))
    (f : α → Run ω β) : (m >>= f) s = f a s' := by
  rw [bind_apply, h]

theorem exists_of_bind_ok {m : Run ω α} {f : α → Run ω β} {s s' : Session ω} {b : β}
    (hrun : (m >>= f) s = (.ok b, s')) : ∃ a s₁, m s = (.ok a, s₁) ∧ f a s₁ = (.ok b, s') := by
  rw [bind_apply] at hrun
  rcases hms : m s with ⟨_ | a, s₁⟩ <;> rw [hms] at hrun
  · cases hrun
  · exact ⟨a, s₁, rfl, hrun⟩

theorem valueOr_of_ok {m : Run ω α} {s s' : Session ω} {a : α} (h : m s = (.ok a, s'))
    (default : α) : valueOr default m s = (.ok a, s') := by
  rw [valueOr_apply, h]

theorem attempt_of_ok {m : Run ω α} {s s' : Session ω} {a : α} (h : m s = (.ok a, s')) :
    attempt m s = (.ok (.ok a), s') := by
  rw [attempt, h]

theorem shielded_apply (m : Run ω Unit) (s : Session ω) :
    shielded m s = match m s with
      | (.error .hang, s') => (.error .hang, s')
      | (_, s') => (.ok (), s') := by
  unfold shielded
  rw [bind_apply, guarded, always, valueOr_apply]
  rcases m s with ⟨(e | q | _) | a, s'⟩ <;> rfl

/-- From every state the computation stays on the course. -/
def Follows (c : Course ω) (m : Run ω α) : Prop := ∀ s, c.Allows (m s).1 s (m s).2

variable {c : Course ω}

theorem follows_pure (a : α) : Follows c (pure a : Run ω α) := fun s => c.refl s

theorem follows_get : Follows c (get : Run ω (Session ω)) := fun s => c.refl s

theorem follows_raise (e : Error) : Follows c (raise e : Run ω α) := fun s => c.refl s

theorem follows_modify {f : Session ω → Session ω} (h : ∀ s, c.Goes s (f s)) :
    Follows c (modify f : Run ω Unit) := fun s => h s

/-- A course may have begun before the computation, at another state. -/
theorem allows_bind_of_ok {m : Run ω α} {f : α → Run ω β} {u s : Session ω}
    (hm : c.Allows (m s).1 u (m s).2)
    (hf : ∀ a s', m s = (.ok a, s') → c.Allows (f a s').1 s' (f a s').2) :
    c.Allows ((m >>= f) s).1 u ((m >>= f) s).2 := by
  rw [bind_apply]
  rcases hms : m s with ⟨stop | a, s'⟩ <;> rw [hms] at hm
  · cases stop <;> exact hm
  · exact (hf a s' hms).after hm

theorem allows_bind {m : Run ω α} {f : α → Run ω β} {u s : Session ω}
    (hm : c.Allows (m s).1 u (m s).2) (hf : ∀ a, Follows c (f a)) :
    c.Allows ((m >>= f) s).1 u ((m >>= f) s).2 :=
  allows_bind_of_ok hm fun a s' _ => hf a s'

theorem follows_bind {m : Run ω α} {f : α → Run ω β} (hm : Follows c m)
    (hf : ∀ a, Follows c (f a)) : Follows c (m >>= f) := fun s => allows_bind (hm s) hf

theorem attempt_snd (m : Run ω α) (s : Session ω) : (attempt m s).2 = (m s).2 := by
  unfold attempt
  rcases m s with ⟨(e | q | _) | a, s'⟩ <;> rfl

theorem follows_attempt {m : Run ω α} (hm : Follows c m) : Follows c (attempt m) := by
  intro s
  have h := hm s
  unfold attempt
  rcases hms : m s with ⟨(e | q | _) | a, s'⟩ <;> rw [hms] at h <;> exact h

theorem allows_guarded {m : Run ω α} {u s : Session ω} (h : c.Allows (m s).1 u (m s).2) :
    c.Allows (guarded m s).1 u (guarded m s).2 := by
  unfold guarded
  rcases hms : m s with ⟨(e | q | _) | a, s'⟩ <;> rw [hms] at h
  case error.panic => exact c.goes h
  all_goals exact h

theorem follows_guarded {m : Run ω α} (hm : Follows c m) : Follows c (guarded m) :=
  fun s => allows_guarded (hm s)

theorem follows_valueOr {m : Run ω α} (default : α) (hm : Follows c m) :
    Follows c (valueOr default m) := by
  refine follows_bind (follows_attempt hm) fun r => ?_
  cases r <;> exact follows_pure _

theorem follows_always {m : Run ω Unit} (hm : Follows c m) : Follows c (always m) :=
  follows_valueOr () hm

theorem follows_shielded {m : Run ω Unit} (hm : Follows c m) : Follows c (shielded m) :=
  follows_bind (follows_guarded (follows_always hm)) fun _ => follows_pure ()

/-- A second panic while the first is dealt with takes all down, so the course has to allow that
it sticks wherever it panics. -/
theorem allows_ensuring {m : Run ω α} {after : Run ω Unit} {u s : Session ω}
    (h : c.Allows (m s).1 u (m s).2) (hafter : Follows c after)
    (hstop : ∀ {a b}, c.Panics a b → c.Sticks a b) :
    c.Allows (ensuring m after s).1 u (ensuring m after s).2 := by
  unfold ensuring
  rcases hms : m s with ⟨(e | q | _) | a, s'⟩ <;> rw [hms] at h <;> dsimp only
  case error.hang => exact h
  case error.panic =>
    have h' := hafter s'
    rcases has : after s' with ⟨(_ | _ | _) | _, s''⟩ <;> rw [has] at h'
    · exact c.panicked h h'
    · exact hstop (c.panics (c.goes h) h')
    · exact c.sticks (c.goes h) h'
    · exact c.panicked h h'
  all_goals
    have h' := hafter s'
    rcases has : after s' with ⟨(_ | _ | _) | _, s''⟩ <;> rw [has] at h' <;> exact h'.after h

theorem follows_ensuring {m : Run ω α} {after : Run ω Unit} (hm : Follows c m)
    (hafter : Follows c after) (hstop : ∀ {a b}, c.Panics a b → c.Sticks a b) :
    Follows c (ensuring m after) := fun s => allows_ensuring (hm s) hafter hstop

theorem allows_onPanic {m : Run ω α} {after : Run ω Unit} {u s : Session ω}
    (h : c.Allows (m s).1 u (m s).2) (hafter : Follows c after)
    (hstop : ∀ {a b}, c.Panics a b → c.Sticks a b) :
    c.Allows (onPanic m after s).1 u (onPanic m after s).2 := by
  unfold onPanic
  rcases hms : m s with ⟨(e | q | _) | a, s'⟩ <;> rw [hms] at h <;> dsimp only
  case error.panic =>
    have h' := hafter s'
    rcases has : after s' with ⟨(_ | _ | _) | _, s''⟩ <;> rw [has] at h'
    · exact c.panicked h h'
    · exact hstop (c.panics (c.goes h) h')
    · exact c.sticks (c.goes h) h'
    · exact c.panicked h h'
  all_goals exact h

theorem follows_onPanic {m : Run ω α} {after : Run ω Unit} (hm : Follows c m)
    (hafter : Follows c after) (hstop : ∀ {a b}, c.Panics a b → c.Sticks a b) :
    Follows c (onPanic m after) := fun s => allows_onPanic (hm s) hafter hstop

theorem follows_forM {τ : Type} {f : τ → Run ω Unit} (xs : List τ)
    (h : ∀ x ∈ xs, Follows c (f x)) : Follows c (xs.forM f) := by
  induction xs with
  | nil => exact follows_pure ()
  | cons x xs ih =>
    refine follows_bind (h x (by simp)) fun _ => ih ?_
    intro y hy
    exact h y (by simp [hy])

theorem follows_now (p : Parties ω) : Follows c (now p) :=
  follows_bind follows_get fun _ => follows_pure _

theorem follows_hang (h : ∀ s, c.Sticks s s) : Follows c (hang : Run ω α) := h

theorem follows_both {d : Course ω} {m : Run ω α} (hc : Follows c m) (hd : Follows d m) :
    Follows (c.both d) m := by
  intro s
  have h := hc s
  have h' := hd s
  rcases hms : m s with ⟨(_ | _ | _) | _, s'⟩ <;> rw [hms] at h h' <;> exact ⟨h, h'⟩

theorem Follows.goes {m : Run ω α} (hm : Follows c m) {s s' : Session ω} {x : Except Stop α}
    (hrun : m s = (x, s')) (hx : x ≠ .error .hang) : c.Goes s s' := by
  have h := hm s
  rw [hrun] at h
  exact h.goes hx

/-- On a course that is gone even by what sticks, every end is reached that way. -/
theorem Follows.grown {m : Run ω α} (hm : Follows c m) (hc : ∀ {a b}, c.Sticks a b → c.Goes a b)
    {s s' : Session ω} {x : Except Stop α} (hrun : m s = (x, s')) : c.Goes s s' := by
  have h := hm s
  rw [hrun] at h
  exact h.goes_of_sticks hc

/-- Without a value, the computation stops only in one of these ways. -/
def Stops (P : Stop → Prop) (m : Run ω α) : Prop := ∀ s stop, (m s).1 = .error stop → P stop

/-- Not with an error: a panic is possible, or that it never comes back. -/
def Unfailing (stop : Stop) : Prop := ∀ e, stop ≠ .error e

variable {P : Stop → Prop}

theorem stops_pure (a : α) : Stops P (pure a : Run ω α) := by
  intro s stop h
  cases h

theorem stops_modify (f : Session ω → Session ω) : Stops P (modify f : Run ω Unit) := by
  intro s stop h
  cases h

theorem stops_get : Stops P (get : Run ω (Session ω)) := by
  intro s stop h
  cases h

theorem stops_set (s : Session ω) : Stops P (set s : Run ω Unit) := by
  intro s' stop h
  cases h

theorem stops_bind {m : Run ω α} {f : α → Run ω β} (hm : Stops P m) (hf : ∀ a, Stops P (f a)) :
    Stops P (m >>= f) := by
  intro s stop h
  rw [bind_apply] at h
  have hms := hm s
  rcases hr : m s with ⟨stop' | a, s'⟩ <;> rw [hr] at h hms
  · cases h
    exact hms _ rfl
  · exact hf a s' stop h

theorem stops_forM {τ : Type} {f : τ → Run ω Unit} (xs : List τ) (h : ∀ x, Stops P (f x)) :
    Stops P (xs.forM f) := by
  induction xs with
  | nil => exact stops_pure ()
  | cons x xs ih => exact stops_bind (h x) fun _ => ih

theorem stops_now (p : Parties ω) : Stops P (now p) := stops_bind stops_get fun _ => stops_pure _

theorem stops_attempt (m : Run ω α) : Stops Unfailing (attempt m) := by
  intro s stop h
  unfold attempt at h
  rcases hms : m s with ⟨(e | q | _) | a, s'⟩ <;> rw [hms] at h <;> cases h <;>
    exact fun e he => by cases he

theorem stops_always (m : Run ω Unit) : Stops Unfailing (always m) := by
  refine stops_bind (stops_attempt m) fun r => ?_
  cases r <;> exact stops_pure ()

theorem stops_valueOr (default : α) (m : Run ω α) : Stops Unfailing (valueOr default m) := by
  refine stops_bind (stops_attempt m) fun r => ?_
  cases r <;> exact stops_pure _

theorem stops_shielded (m : Run ω Unit) : Stops (· = .hang) (shielded m) := by
  intro s stop h
  rw [shielded_apply] at h
  rcases hms : m s with ⟨(e | q | _) | a, s'⟩ <;> rw [hms] at h <;> cases h
  rfl

/-- Whenever the computation has a value, it leaves a state of this kind. -/
def Leaves (Q : Session ω → Prop) (m : Run ω α) : Prop := ∀ s a s', m s = (.ok a, s') → Q s'

variable {Q : Session ω → Prop}

theorem leaves_of_forall {m : Run ω α} (h : ∀ s, Q (m s).2) : Leaves Q m := by
  intro s a s' hr
  have hs := h s
  rw [hr] at hs
  exact hs

theorem leaves_raise (e : Error) : Leaves Q (raise e : Run ω α) := by
  intro s a s' h
  cases h

theorem leaves_bind {m : Run ω α} {f : α → Run ω β} (hf : ∀ a, Leaves Q (f a)) :
    Leaves Q (m >>= f) := by
  intro s b s' h
  rw [bind_apply] at h
  rcases hm : m s with ⟨stop | a, s₁⟩ <;> rw [hm] at h
  · cases h
  · exact hf a s₁ b s' h

theorem leaves_bind_pure {m : Run ω α} (hm : Leaves Q m) (b : β) :
    Leaves Q (m >>= fun _ => pure b) := by
  intro s b' s' h
  rw [bind_apply] at h
  rcases hms : m s with ⟨stop | a, s₁⟩ <;> rw [hms] at h <;> cases h
  exact hm s a _ hms

theorem leaves_attempt_bind {m : Run ω Unit} {f : Except Error Unit → Run ω Unit}
    (hm : Leaves Q m) (hok : f (.ok ()) = pure ()) (herr : ∀ e, Leaves Q (f (.error e))) :
    Leaves Q (attempt m >>= f) := by
  intro s a s' h
  rw [bind_apply, attempt] at h
  rcases hms : m s with ⟨(e | q | _) | _, s₁⟩ <;> rw [hms] at h
  · exact herr e s₁ a s' h
  · cases h
  · cases h
  · change f (.ok ()) s₁ = _ at h
    rw [hok] at h
    cases h
    exact hm s () _ hms

theorem leaves_hang : Leaves Q (hang : Run ω α) := by
  intro s a s' h
  cases h

end Run
end DatabaseSession
