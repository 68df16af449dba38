import DatabaseSession.Run

namespace DatabaseSession.Session

variable {ω : Type}

/-- Requests are only added to the queue, and whoever closes a threaded session asks its worker to
stop. -/
structure Attends (s s' : Session ω) : Prop where
  receiving : s'.mailbox.receiving = s.mailbox.receiving
  queue : ∀ r ∈ s.mailbox.queue, r ∈ s'.mailbox.queue
  life : s'.life = s.life ∨ s.life = .threaded ∧ s'.life = .closed ∧
    (s.mailbox.receiving = true → .close ∈ s'.mailbox.queue)

theorem Attends.of_eq {s s' : Session ω} (hmail : s'.mailbox = s.mailbox)
    (hlife : s'.life = s.life) : Attends s s' :=
  ⟨by rw [hmail], fun r hr => by rw [hmail]; exact hr, .inl hlife⟩

theorem Attends.refl (s : Session ω) : Attends s s := .of_eq rfl rfl

theorem Attends.trans {a b c : Session ω} (h : Attends a b) (h' : Attends b c) : Attends a c where
  receiving := h'.receiving.trans h.receiving
  queue r hr := h'.queue r (h.queue r hr)
  life := by
    rcases h.life with hl | ⟨hl, hc, hq⟩
    · simpa [hl, h.receiving] using h'.life
    · refine .inr ⟨hl, ?_, fun hrecv => h'.queue _ (hq hrecv)⟩
      rcases h'.life with hl' | ⟨_, hc', _⟩
      · exact hl'.trans hc
      · exact hc'

/-- What stays as it is while a party uses the session in its turn, or another thread does. -/
structure Meanwhile (s s' : Session ω) : Prop extends Attends s s' where
  id : s'.id = s.id
  settings : s'.settings = s.settings
  locked : s'.locked = s.locked
  terminated : s'.terminated = s.terminated
  stats : s'.stats = s.stats
  statsHeld : s'.statsHeld = s.statsHeld
  published : s'.published = s.published
  link : s'.link = s.link
  active : s'.active = s.active

/-- A change of the queue, the registry, the handles and the life only. -/
structure Filed (s s' : Session ω) : Prop extends Meanwhile s s' where
  killed : s'.killed = s.killed
  trackers : s'.trackers = s.trackers
  outside : s'.outside = s.outside

theorem Meanwhile.refl (s : Session ω) : Meanwhile s s :=
  ⟨.refl s, rfl, rfl, rfl, rfl, rfl, rfl, rfl, rfl, rfl⟩

theorem Meanwhile.trans {a b c : Session ω} (h : Meanwhile a b) (h' : Meanwhile b c) :
    Meanwhile a c where
  toAttends := h.toAttends.trans h'.toAttends
  id := h'.id.trans h.id
  settings := h'.settings.trans h.settings
  locked := h'.locked.trans h.locked
  terminated := h'.terminated.trans h.terminated
  stats := h'.stats.trans h.stats
  statsHeld := h'.statsHeld.trans h.statsHeld
  published := h'.published.trans h.published
  link := h'.link.trans h.link
  active := h'.active.trans h.active

theorem Filed.refl (s : Session ω) : Filed s s := ⟨.refl s, rfl, rfl, rfl⟩

theorem Filed.trans {a b c : Session ω} (h : Filed a b) (h' : Filed b c) : Filed a c :=
  ⟨h.toMeanwhile.trans h'.toMeanwhile, h'.killed.trans h.killed, h'.trackers.trans h.trackers,
    h'.outside.trans h.outside⟩

theorem sendRequest_filed (s : Session ω) (j : Request) : Filed s (s.sendRequest j).2 := by
  unfold sendRequest
  split
  · exact ⟨⟨⟨rfl, by simp +contextual [Mailbox.push], .inl rfl⟩,
      rfl, rfl, rfl, rfl, rfl, rfl, rfl, rfl, rfl⟩, rfl, rfl, rfl⟩
  · exact .refl s

theorem requestClose_filed (s : Session ω) (h : s.life = .threaded) : Filed s s.requestClose := by
  have hsend := sendRequest_filed s .close
  refine ⟨{ hsend.toMeanwhile with life := .inr ⟨h, rfl, ?_⟩ }, hsend.killed, hsend.trackers,
    hsend.outside⟩
  intro hrecv
  simp [requestClose, sendRequest, hrecv, Mailbox.push]

theorem giveUpHandle_filed (s : Session ω) : Filed s s.giveUpHandle := by
  have hleft : Filed s { s with handles := s.handles - 1 } :=
    ⟨⟨.of_eq rfl rfl, rfl, rfl, rfl, rfl, rfl, rfl, rfl, rfl, rfl⟩, rfl, rfl, rfl⟩
  unfold giveUpHandle
  dsimp only
  split
  · next h => exact hleft.trans (requestClose_filed _ h.2)
  · exact hleft

theorem enqueue_filed (s : Session ω) (t : Task) : Filed s (s.enqueue t).2 := by
  by_cases h : s.mailbox.receiving = true <;> simp only [enqueue, sendRequest, h] <;>
    exact ⟨⟨⟨by simp [Mailbox.push, h], by simp +contextual [Mailbox.push], .inl rfl⟩,
      rfl, rfl, rfl, rfl, rfl, rfl, rfl, rfl, rfl⟩, rfl, rfl, rfl⟩

/-- A submission is refused or waits for ever with nothing done, or it comes to the queue. -/
theorem answerSubmission_cases (s : Session ω) (t : Task) (wrap : Except Error Unit → Answer) :
    s.answerSubmission t wrap = (none, s) ∨
      (∃ e, s.answerSubmission t wrap = (some (wrap (.error e)), s)) ∨
      s.life = .threaded ∧
        s.answerSubmission t wrap = (some (wrap (s.enqueue t).1), (s.enqueue t).2) := by
  unfold answerSubmission refusal
  split
  · exact .inl rfl
  · cases hl : s.life with
    | idle => exact .inr (.inl ⟨_, rfl⟩)
    | closed => exact .inr (.inl ⟨_, rfl⟩)
    | threaded => exact .inr (.inr ⟨rfl, rfl⟩)
    | inCaller => exact .inl rfl

theorem answerSubmission_filed (s : Session ω) (t : Task) (wrap : Except Error Unit → Answer) :
    Filed s (s.answerSubmission t wrap).2 := by
  rcases answerSubmission_cases s t wrap with h | ⟨e, h⟩ | ⟨-, h⟩ <;> rw [h]
  · exact .refl s
  · exact .refl s
  · exact enqueue_filed s t

theorem requestReconnect_filed (s : Session ω) (options : Option Options) :
    Filed s (s.requestReconnect options).2 := by
  by_cases h : s.mailbox.receiving = true <;> simp only [requestReconnect, sendRequest, h] <;>
    exact ⟨⟨⟨by simp [Mailbox.push, h], by simp +contextual [Mailbox.push], .inl rfl⟩,
      rfl, rfl, rfl, rfl, rfl, rfl, rfl, rfl, rfl⟩, rfl, rfl, rfl⟩

/-- What answering a call does to the session, if anything. -/
inductive Answered (p : Parties ω) (s : Session ω) : Call → Session ω → Prop where
  | unchanged {call : Call} (hleft : ∀ name, call ≠ .failures name true) : Answered p s call s
  | closes (hlife : s.life = .threaded) : Answered p s .close s.requestClose
  | reconnects (options : Option Options) :
      Answered p s (.reconnect options) (s.requestReconnect options).2
  | queuesReconnect (options : Option Options) :
      Answered p s (.queueReconnect options) (s.requestReconnect options).2
  | executes (t : Task) : Answered p s (.execute t)
      (answerSubmission { s with killed := false } t outcomeAnswer).2
  | submits (t : Task) : Answered p s (.submit t) (s.answerSubmission t outcomeAnswer).2
  | assigns (t : Task) : Answered p s (.assign t) (s.answerSubmission t .result).2
  | kills : Answered p s .kill (s.kill p)
  | cancels (id : String) :
      Answered p s (.cancel id) { s with registry := (s.registry.cancel id).2 }
  | takes (name : String) : Answered p s (.failures name true)
      { s with trackers := Trackers.set s.trackers name [] }
  | clones : Answered p s .cloneHandle { s with handles := s.handles + 1 }
  | drops : Answered p s .dropHandle s.giveUpHandle

theorem answer_answered (p : Parties ω) (thread : Thread) (call : Call) (s : Session ω) :
    Answered p s call (answer p thread call s).2 := by
  cases call with
  | start =>
    simp only [answer]
    split
    · exact .unchanged (by simp)
    · split <;> exact .unchanged (by simp)
  | close =>
    simp only [answer]
    split
    · exact .unchanged (by simp)
    · split
      · exact .unchanged (by simp)
      · exact .unchanged (by simp)
      · next h => exact .closes h
      · exact .unchanged (by simp)
  | isOpen =>
    simp only [answer]
    split <;> exact .unchanged (by simp)
  | reconnect options =>
    have h : Answered p s _ (s.requestReconnect options).2 := .reconnects options
    simp only [answer]
    split
    · exact .unchanged (by simp)
    · split
      · exact .unchanged (by simp)
      · split
        · exact .unchanged (by simp)
        · split <;> simp_all
  | queueReconnect options =>
    simp only [answer]
    split
    · exact .unchanged (by simp)
    · split
      · exact .unchanged (by simp)
      · split
        · exact .unchanged (by simp)
        · exact .queuesReconnect options
  | execute t => exact .executes t
  | submit t => exact .submits t
  | assign t => exact .assigns t
  | kill => exact .kills
  | cancel id => exact .cancels id
  | failures name take =>
    cases take
    · exact .unchanged (by simp)
    · exact .takes name
  | cloneHandle => exact .clones
  | dropHandle =>
    simp only [answer]
    split <;> exact .drops
  | waitTerminated | awaitReconnect _ | isKilled | isCancelled _ | pending | status | info
  | defaultSchema => exact .unchanged (by simp)

/-- A call files something, or lifts a kill and files something, or kills, or takes failures. -/
theorem answer_cases (p : Parties ω) (thread : Thread) (call : Call) (s : Session ω) :
    ((∀ name, call ≠ .failures name true) ∧ Filed s (answer p thread call s).2)
      ∨ (∃ t, call = .execute t ∧ Filed { s with killed := false } (answer p thread call s).2)
      ∨ (call = .kill ∧ answer p thread call s = (some .unit, s.kill p))
      ∨ ∃ name, call = .failures name true ∧ answer p thread call s =
          (some (.failures (Trackers.failures s.trackers name)),
            { s with trackers := Trackers.set s.trackers name [] }) := by
  have h := answer_answered p thread call s
  generalize (answer p thread call s).2 = s' at h ⊢
  cases h with
  | unchanged hleft => exact .inl ⟨hleft, .refl s⟩
  | closes hlife => exact .inl ⟨by simp, requestClose_filed s hlife⟩
  | reconnects options | queuesReconnect options =>
    exact .inl ⟨by simp, requestReconnect_filed s options⟩
  | executes t => exact .inr (.inl ⟨t, rfl, answerSubmission_filed _ t _⟩)
  | submits t | assigns t => exact .inl ⟨by simp, answerSubmission_filed s t _⟩
  | kills => exact .inr (.inr (.inl ⟨rfl, rfl⟩))
  | cancels _ | clones =>
    exact .inl ⟨by simp,
      ⟨.of_eq rfl rfl, rfl, rfl, rfl, rfl, rfl, rfl, rfl, rfl, rfl⟩, rfl, rfl, rfl⟩
  | takes name => exact .inr (.inr (.inr ⟨name, rfl, rfl⟩))
  | drops => exact .inl ⟨by simp, giveUpHandle_filed s⟩

end DatabaseSession.Session
