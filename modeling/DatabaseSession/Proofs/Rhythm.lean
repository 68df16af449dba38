import DatabaseSession.Proofs.Log

namespace DatabaseSession

/-- What is seen of the keep-alives of a session. -/
inductive Pulse where
  /-- The heartbeat ticks, and claims a keep-alive unless one is under way. -/
  | tick (claimed : Bool)
  /-- It sends the keep-alive that it has claimed, and the queue takes it or not. -/
  | sent (queued : Bool)
  | taken
  | reset
  | ping
  deriving DecidableEq

def Duty.pulse? : Duty → Option Pulse
  | .ping => some .ping
  | _ => none

namespace Pulse

def isPing : Pulse → Bool
  | .ping => true
  | _ => false

def isBeat : Pulse → Bool
  | .tick _ | .sent _ => true
  | _ => false

/-- Before a ping, a keep-alive went all the way for it: it was claimed by a tick after the one
before it had been taken, it was sent, taken and reset, and nothing was pinged for it before. -/
def Causes (before : List Pulse) : Prop :=
  ∃ earlier claimed queued held reset,
    before = earlier ++ .tick true :: (claimed ++ .sent true :: (queued ++ .taken ::
      (held ++ .reset :: reset))) ∧
    .taken ∉ claimed ++ queued ++ held ++ reset ∧ .ping ∉ reset

/-- The keep-alive that was claimed before is queued, and until then there are only ticks in vain
and a ping for the one before. -/
def Queues (after : List Pulse) : Prop :=
  ∃ meanwhile later, after = meanwhile ++ .sent true :: later ∧
    ∀ x ∈ meanwhile, x = .tick false ∨ x = .ping

end Pulse

/-- Where the one keep-alive is that may be under way. -/
inductive Whereabouts where
  | nowhere
  /-- The heartbeat is about to send it. -/
  | claimed
  | queued
  /-- The worker has taken it and has not reset the flag yet. -/
  | held
  deriving DecidableEq

/-- How far the keep-alives have come. -/
structure Rhythm where
  place : Whereabouts := .nowhere
  /-- A ping is due for the last one that was reset. -/
  due : Bool := false
  deriving DecidableEq

namespace Rhythm

/-- What a pulse makes of the rhythm; none if it is out of turn. -/
def next (r : Rhythm) : Pulse → Option Rhythm
  | .tick true => if r.place = .nowhere then some { r with place := .claimed } else none
  | .tick false => if r.place = .nowhere then none else some r
  | .sent true => if r.place = .claimed then some { r with place := .queued } else none
  | .sent false => none
  | .taken => if r.place = .queued then some { place := .held, due := false } else none
  | .reset => if r.place = .held then some { place := .nowhere, due := true } else none
  | .ping => if r.due then some { r with due := false } else none

def after (r : Rhythm) (pulses : List Pulse) : Option Rhythm := pulses.foldlM next r

theorem after_append (r : Rhythm) (pulses more : List Pulse) :
    r.after (pulses ++ more) = (r.after pulses).bind fun r' => r'.after more := by
  simp [after, List.foldlM_append]

theorem after_cons (r : Rhythm) (x : Pulse) (pulses : List Pulse) :
    r.after (x :: pulses) = (r.next x).bind fun r' => r'.after pulses := by
  simp [after]

theorem after_snoc {r r' : Rhythm} {pulses : List Pulse} (h : r.after pulses = some r')
    (x : Pulse) : r.after (pulses ++ [x]) = r'.next x := by
  rw [after_append, h]
  simp [after]

section Next

variable {r r' : Rhythm}

theorem next_tick_true : r.next (.tick true) = some r' ↔
    r.place = .nowhere ∧ { r with place := .claimed } = r' := by
  simp [next]

theorem next_tick_false : r.next (.tick false) = some r' ↔ r.place ≠ .nowhere ∧ r = r' := by
  simp [next]

theorem next_sent_true : r.next (.sent true) = some r' ↔
    r.place = .claimed ∧ { r with place := .queued } = r' := by
  simp [next]

theorem next_sent_false : r.next (.sent false) = none := rfl

theorem next_taken : r.next .taken = some r' ↔
    r.place = .queued ∧ { place := .held, due := false } = r' := by
  simp [next]

theorem next_reset : r.next .reset = some r' ↔
    r.place = .held ∧ { place := .nowhere, due := true } = r' := by
  simp [next]

theorem next_ping : r.next .ping = some r' ↔ r.due = true ∧ { r with due := false } = r' := by
  simp [next]

end Next

/-- What a rhythm tells about the pulses that led to it. -/
structure Tells (r : Rhythm) (pulses : List Pulse) : Prop where
  claimed : r.place = .claimed →
    ∃ earlier claimed, pulses = earlier ++ .tick true :: claimed ∧ .taken ∉ claimed
  queued : r.place = .queued →
    ∃ earlier claimed queued, pulses = earlier ++ .tick true :: (claimed ++ .sent true :: queued) ∧
      .taken ∉ claimed ++ queued
  held : r.place = .held →
    ∃ earlier claimed queued held, pulses = earlier ++ .tick true :: (claimed ++ .sent true ::
      (queued ++ .taken :: held)) ∧ .taken ∉ claimed ++ queued ++ held
  due : r.due = true → Pulse.Causes pulses

theorem Tells.next {r r' : Rhythm} {pulses : List Pulse} (h : Tells r pulses) {x : Pulse}
    (hx : r.next x = some r') : Tells r' (pulses ++ [x]) := by
  -- a pulse that is no more than that leaves every tale as it is, but for its end
  have hclaimed (hne : x ≠ .taken) (hp : r.place = .claimed) : ∃ earlier claimed,
      pulses ++ [x] = earlier ++ .tick true :: claimed ∧ .taken ∉ claimed := by
    obtain ⟨earlier, claimed, rfl, hnot⟩ := h.claimed hp
    exact ⟨earlier, claimed ++ [x], by simp, by simp [hnot, hne.symm]⟩
  have hqueued (hne : x ≠ .taken) (hp : r.place = .queued) : ∃ earlier claimed queued,
      pulses ++ [x] = earlier ++ .tick true :: (claimed ++ .sent true :: queued) ∧
        .taken ∉ claimed ++ queued := by
    obtain ⟨earlier, claimed, queued, rfl, hnot⟩ := h.queued hp
    exact ⟨earlier, claimed, queued ++ [x], by simp, by simp_all [hne.symm]⟩
  have hheld (hne : x ≠ .taken) (hp : r.place = .held) : ∃ earlier claimed queued held,
      pulses ++ [x] = earlier ++ .tick true :: (claimed ++ .sent true :: (queued ++ .taken ::
        held)) ∧ .taken ∉ claimed ++ queued ++ held := by
    obtain ⟨earlier, claimed, queued, held, rfl, hnot⟩ := h.held hp
    exact ⟨earlier, claimed, queued, held ++ [x], by simp, by simp_all [hne.symm]⟩
  have hdue (hne : x ≠ .taken) (hping : x ≠ .ping) (hd : r.due = true) :
      Pulse.Causes (pulses ++ [x]) := by
    obtain ⟨earlier, claimed, queued, held, reset, rfl, hnot, hlast⟩ := h.due hd
    exact ⟨earlier, claimed, queued, held, reset ++ [x], by simp, by simp_all [hne.symm],
      by simp [hlast, hping.symm]⟩
  cases x with
  | tick claimed =>
    cases claimed with
    | true =>
      obtain ⟨-, rfl⟩ := next_tick_true.mp hx
      exact ⟨fun _ => ⟨pulses, [], by simp, by simp⟩, by simp, by simp, hdue (by simp) (by simp)⟩
    | false =>
      obtain ⟨-, rfl⟩ := next_tick_false.mp hx
      exact ⟨hclaimed (by simp), hqueued (by simp), hheld (by simp), hdue (by simp) (by simp)⟩
  | sent queued =>
    cases queued with
    | true =>
      obtain ⟨hp, rfl⟩ := next_sent_true.mp hx
      obtain ⟨earlier, claimed, rfl, hnot⟩ := h.claimed hp
      exact ⟨by simp, fun _ => ⟨earlier, claimed, [], by simp, by simpa using hnot⟩, by simp,
        hdue (by simp) (by simp)⟩
    | false => simp [next_sent_false] at hx
  | taken =>
    obtain ⟨hp, rfl⟩ := next_taken.mp hx
    obtain ⟨earlier, claimed, queued, rfl, hnot⟩ := h.queued hp
    exact ⟨by simp, by simp, fun _ => ⟨earlier, claimed, queued, [], by simp, by simpa using hnot⟩,
      by simp⟩
  | reset =>
    obtain ⟨hp, rfl⟩ := next_reset.mp hx
    obtain ⟨earlier, claimed, queued, held, rfl, hnot⟩ := h.held hp
    exact ⟨by simp, by simp, by simp, fun _ => ⟨earlier, claimed, queued, held, [], by simp,
      by simpa using hnot, by simp⟩⟩
  | ping =>
    obtain ⟨-, rfl⟩ := next_ping.mp hx
    exact ⟨hclaimed (by simp), hqueued (by simp), hheld (by simp), by simp⟩

theorem Tells.after {r r' : Rhythm} {before pulses : List Pulse} (h : Tells r before)
    (hr : r.after pulses = some r') : Tells r' (before ++ pulses) := by
  induction pulses generalizing r before with
  | nil =>
    cases hr
    simpa using h
  | cons x pulses ih =>
    rw [after_cons, Option.bind_eq_some_iff] at hr
    obtain ⟨r₁, hx, hr⟩ := hr
    simpa using ih (h.next hx) hr

/-- Every ping has a cause of its own. -/
theorem causes_of_ping {before later : List Pulse} {r : Rhythm}
    (h : after {} (before ++ .ping :: later) = some r) : Pulse.Causes before := by
  rw [after_append, Option.bind_eq_some_iff] at h
  obtain ⟨r₁, hbefore, hping⟩ := h
  rw [after_cons, Option.bind_eq_some_iff] at hping
  obtain ⟨r₂, hping, -⟩ := hping
  have htells : Tells {} [] := ⟨by simp, by simp, by simp, by simp⟩
  exact (htells.after hbefore).due (next_ping.mp hping).1

theorem nowhere_after {r r' : Rhythm} {pulses : List Pulse} (h : r.after pulses = some r')
    (hnowhere : r.place = .nowhere) (hticks : ∀ b, .tick b ∉ pulses) : r'.place = .nowhere := by
  induction pulses generalizing r with
  | nil =>
    cases h
    exact hnowhere
  | cons x pulses ih =>
    rw [after_cons, Option.bind_eq_some_iff] at h
    obtain ⟨r₁, hx, h⟩ := h
    refine ih h ?_ fun b hb => hticks b (List.mem_cons_of_mem _ hb)
    cases x with
    | tick b => exact absurd (by simp) (hticks b)
    | sent b => cases b <;> simp [next, hnowhere] at hx
    | taken | reset => simp [next, hnowhere] at hx
    | ping =>
      obtain ⟨-, rfl⟩ := next_ping.mp hx
      exact hnowhere

theorem queues_of_claimed {r r' : Rhythm} {pulses : List Pulse} (h : r.after pulses = some r')
    (hclaimed : r.place = .claimed) : Pulse.Queues pulses ∨ r'.place = .claimed := by
  induction pulses generalizing r with
  | nil =>
    cases h
    exact .inr hclaimed
  | cons x pulses ih =>
    rw [after_cons, Option.bind_eq_some_iff] at h
    obtain ⟨r₁, hx, h⟩ := h
    have hon (hx : x = .tick false ∨ x = .ping) (hr₁ : r₁.place = .claimed) :
        Pulse.Queues (x :: pulses) ∨ r'.place = .claimed := by
      refine (ih h hr₁).imp_left ?_
      rintro ⟨meanwhile, later, rfl, honly⟩
      exact ⟨x :: meanwhile, later, by simp, by simpa using ⟨hx, honly⟩⟩
    cases x with
    | sent queued =>
      cases queued with
      | true => exact .inl ⟨[], pulses, by simp, by simp⟩
      | false => simp [next_sent_false] at hx
    | tick claimed =>
      cases claimed with
      | true => simp [next, hclaimed] at hx
      | false =>
        obtain ⟨-, rfl⟩ := next_tick_false.mp hx
        exact hon (.inl rfl) hclaimed
    | taken | reset => simp [next, hclaimed] at hx
    | ping =>
      obtain ⟨-, rfl⟩ := next_ping.mp hx
      exact hon (.inr rfl) hclaimed

theorem queues_of_tick {before between later : List Pulse} {won : Bool} {r : Rhythm}
    (h : after {} (before ++ .reset :: (between ++ .tick won :: later)) = some r)
    (hticks : ∀ b, .tick b ∉ between) :
    won = true ∧ (Pulse.Queues later ∨ r.place = .claimed) := by
  rw [after_append, Option.bind_eq_some_iff] at h
  obtain ⟨r₁, -, h⟩ := h
  rw [after_cons, Option.bind_eq_some_iff] at h
  obtain ⟨r₂, hreset, h⟩ := h
  rw [after_append, Option.bind_eq_some_iff] at h
  obtain ⟨r₃, hbetween, h⟩ := h
  rw [after_cons, Option.bind_eq_some_iff] at h
  obtain ⟨r₄, htick, hlater⟩ := h
  obtain ⟨-, rfl⟩ := next_reset.mp hreset
  have hnowhere := nowhere_after hbetween rfl hticks
  cases won with
  | false => simp [next, hnowhere] at htick
  | true =>
    obtain ⟨-, rfl⟩ := next_tick_true.mp htick
    exact ⟨rfl, queues_of_claimed hlater rfl⟩

end Rhythm
end DatabaseSession
