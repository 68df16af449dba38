import DatabaseSession.Proofs.Chunks
import DatabaseSession.Proofs.Delivery

namespace DatabaseSession

namespace Call

/-- Answered at once, whoever asks and whatever else goes on, and with no effect on a running
statement. -/
def isReady : Call → Bool
  | .waitTerminated | .isKilled | .cancel _ | .isCancelled _ | .pending | .status | .info
  | .defaultSchema | .failures _ _ | .cloneHandle => true
  | _ => false

end Call

namespace Turn

variable {ω α : Type}

/-- The turn ends well in such a value and state, whatever it is answered meanwhile. -/
def EndsWell (Q : α → ω → Prop) : Turn ω α → Prop
  | .done (.ok a) w => Q a w
  | .done (.error _) _ => False
  | .ask _ call w next => call.isReady = true ∧ ∀ a, EndsWell Q (next a w)

theorem EndsWell.mono {Q Q' : α → ω → Prop} (h : ∀ a w, Q a w → Q' a w) {t : Turn ω α}
    (ht : t.EndsWell Q) : t.EndsWell Q' := by
  induction t with
  | done x w =>
    cases x with
    | ok a => exact h a w ht
    | error stop => exact ht
  | ask thread call w next ih => exact ⟨ht.1, fun a => ih a w (ht.2 a)⟩

end Turn

structure Results where
  first : RowSet
  more : List RowSet := []

def Results.sets (r : Results) : List RowSet := r.first :: r.more

def RowSet.tail (set : RowSet) : RowSet := { set with rows := set.rows.tail }

/-- A backend whose statements succeed. `Holds plan sets` tells of a state that the statements of
the plan will have these results, and that these sets are left of the current one. The sinks let
the backend be. -/
structure Supply {ω : Type} (p : Parties ω) (params : List Value) where
  Holds : List (String × Results) → List RowSet → ω → Prop
  execute : ∀ {sql results plan sets w}, Holds ((sql, results) :: plan) sets w →
    (p.backend.execute sql params w).EndsWell fun _ w => Holds plan results.sets w
  columns : ∀ {plan set sets w}, Holds plan (set :: sets) w →
    (p.backend.columns w).EndsWell fun c w => c = set.columns ∧ Holds plan (set :: sets) w
  fetchRow : ∀ {plan set sets w}, Holds plan (set :: sets) w →
    (p.backend.fetchRow w).EndsWell fun row w =>
      row = set.rows.head? ∧ Holds plan (set.tail :: sets) w
  stats : ∀ {plan set sets w}, Holds plan (set :: sets) w →
    (p.backend.stats w).EndsWell fun c w => c = set.stats ∧ Holds plan (set :: sets) w
  nextResult : ∀ {plan set sets w}, Holds plan (set :: sets) w →
    (p.backend.nextResult w).EndsWell fun b w => b = !sets.isEmpty ∧ Holds plan sets w
  post : ∀ {plan sets w} inbox event, Holds plan sets w → Holds plan sets (p.post inbox event w)
  callback : ∀ {plan sets w} key event, Holds plan sets w →
    (p.callback key event w).EndsWell fun _ w => Holds plan sets w

namespace Session

variable {ω : Type}

theorem answer_ready (p : Parties ω) (thread : Thread) {call : Call} (h : call.isReady = true)
    (s : Session ω) :
    ∃ a s', answer p thread call s = (some a, s') ∧ s'.outside = s.outside ∧
      s'.killed = s.killed := by
  cases call with
  | failures tracker take => cases take <;> exact ⟨_, _, rfl, rfl, rfl⟩
  | waitTerminated | isKilled | cancel | isCancelled | pending | status | info | defaultSchema
  | cloneHandle => exact ⟨_, _, rfl, rfl, rfl⟩
  | _ => simp [Call.isReady] at h

end Session

namespace Run

variable {ω α : Type}

theorem play_endsWell (p : Parties ω) (d : Duty) {Q : α → ω → Prop} (t : Turn ω α)
    (ht : t.EndsWell Q) (log : Log) (s : Session (Log × ω)) :
    ∃ a s', play p.logged (t.logged d log) s = (.ok a, s') ∧ Q a s'.outside.2 ∧
      s'.killed = s.killed := by
  induction t generalizing log s with
  | done x w =>
    cases x with
    | ok a => exact ⟨a, _, rfl, ht, rfl⟩
    | error stop => exact ht.elim
  | ask thread call w next ih =>
    obtain ⟨hready, hnext⟩ := ht
    obtain ⟨a, s₁, hans, hout, hkill⟩ :=
      Session.answer_ready p.logged thread hready { s with outside := (log, w) }
    rw [Turn.logged, play, hans]
    dsimp only
    rw [hout]
    obtain ⟨b, s', hplay, hq, hkill'⟩ := ih a w (hnext a) (log ++ [.asked thread call a]) s₁
    exact ⟨b, s', hplay, hq, hkill'.trans hkill⟩

end Run

namespace Supply

open Run DatabaseSession.Task

variable {ω α : Type} {p : Parties ω} {params : List Value} {supply : Supply p params}
variable {plan plan' : List (String × Results)} {sets sets' : List RowSet}
variable {s s' s'' : Session (Log × ω)}

/-- The results are at hand, nobody has killed the session, and the active task is open. -/
structure Ready (supply : Supply p params) (plan : List (String × Results)) (sets : List RowSet)
    (s : Session (Log × ω)) : Prop where
  holds : supply.Holds plan sets s.outside.2
  killed : s.killed = false
  isOpen : s.active.courier.terminal = none

structure Leads (supply : Supply p params) (plan : List (String × Results)) (sets : List RowSet)
    (es : List Event) (s s' : Session (Log × ω)) : Prop where
  ready : supply.Ready plan sets s'
  sends : ∃ new, Sends new es s s'

theorem Leads.trans {es es' : List Event} (h : supply.Leads plan sets es s s')
    (h' : supply.Leads plan' sets' es' s' s'') : supply.Leads plan' sets' (es ++ es') s s'' := by
  obtain ⟨new, hs⟩ := h.sends
  obtain ⟨new', hs'⟩ := h'.sends
  exact ⟨h'.ready, new ++ new', hs.append hs'⟩

theorem Leads.requestId {es : List Event} (h : supply.Leads plan sets es s s') :
    s'.active.courier.requestId = s.active.courier.requestId := by
  obtain ⟨new, hs⟩ := h.sends
  exact hs.requestId

theorem party_leads {d : Duty} (hd : Log.deliveries [.called d] = []) {m : Play ω α}
    {Q : α → Prop} (hs : supply.Ready plan sets s)
    (hm : (m s.outside.2).EndsWell fun a w => Q a ∧ supply.Holds plan' sets' w) :
    ∃ a s', party p.logged (m.logged d) s = (.ok a, s') ∧ Q a ∧
      supply.Leads plan' sets' [] s s' := by
  obtain ⟨new, ht⟩ := party_logged p d m s
  obtain ⟨a, s', hplay, ⟨hq, hholds⟩, hkill⟩ :=
    play_endsWell p d (m s.outside.2) hm (s.outside.1 ++ [.called d]) s
  have hr : party p.logged (m.logged d) s = (.ok a, s') := hplay
  rw [hr] at ht
  refine ⟨a, s', hr, hq, ⟨hholds, hkill.trans hs.killed, ?_⟩, new, .ofTurned ht hd⟩
  rw [ht.active]
  exact hs.isOpen

theorem update_leads {f : Task → Task} (hwork : (f s.active).work = s.active.work)
    (hcourier : (f s.active).courier = s.active.courier) (hs : supply.Ready plan sets s) :
    update f s = (.ok (), { s with active := f s.active }) ∧
      supply.Leads plan sets [] s { s with active := f s.active } := by
  refine ⟨rfl, ⟨hs.holds, hs.killed, ?_⟩, [], .silent (by simp [Session.log]) hwork hcourier rfl
    (by simp [Log.taken])⟩
  change (f s.active).courier.terminal = none
  rw [hcourier]
  exact hs.isOpen

theorem hand_holds (supply : Supply p params) (sink : Sink) (event : Event)
    (hs : supply.Holds plan sets s.outside.2) :
    ∃ s', hand p.logged sink event s = (.ok (), s') ∧ supply.Holds plan sets s'.outside.2 ∧
      s'.killed = s.killed := by
  cases sink with
  | discard => exact ⟨s, rfl, hs, rfl⟩
  | channel inbox => exact ⟨_, rfl, supply.post inbox event hs, rfl⟩
  | callback key =>
    obtain ⟨_, s', hplay, hholds, hkill⟩ := play_endsWell p (.deliver (.callback key) event)
      (p.callback key event s.outside.2) (supply.callback key event hs)
      (s.outside.1 ++ [.called (.deliver (.callback key) event)]) s
    exact ⟨s', valueOr_of_ok hplay (), hholds, hkill⟩

theorem emit_holds (state : Progress) (message : Option String) (data : Option EventData)
    (hs : supply.Ready plan sets s) :
    ∃ s' new, emit p.logged state message data none s = (.ok (), s') ∧
      Sends new [⟨s.active.courier.requestId, state, message, none, data⟩] s s' ∧
      supply.Holds plan sets s'.outside.2 ∧ s'.killed = false ∧
      s'.active.courier.terminal = if state.isTerminal then some state else none := by
  obtain ⟨new, x, s', hr, hsent, hterm, -, -⟩ := emit_sends p state message data none s hs.isOpen
  have hemit := emit_open p.logged state message data none s hs.isOpen
  obtain ⟨s₁, hhand, hholds, hkill⟩ := supply.hand_holds s.active.courier.sink
    ⟨s.active.courier.requestId, state, message, none, data⟩
    (s := book s ⟨s.active.courier.requestId, state, message, none, data⟩) hs.holds
  rw [hhand, hr] at hemit
  obtain ⟨rfl, rfl⟩ := Prod.mk.inj hemit
  exact ⟨s', new, hr, hsent, hholds, hkill.trans hs.killed, hterm⟩

end Supply
end DatabaseSession
