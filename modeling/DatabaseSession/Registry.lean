namespace DatabaseSession

/-- Cancellation of queued requests: how many tasks wait under each request id, and the ids
marked for cancellation. Ids may repeat. -/
structure Registry where
  waiting : List String := []
  marked : List String := []
  deriving DecidableEq, Repr, Inhabited

namespace Registry

def count (r : Registry) (id : String) : Nat := r.waiting.count id

def pending (r : Registry) : Nat := r.waiting.length

def isCancelled (r : Registry) (id : String) : Bool := r.marked.contains id

def enqueue (r : Registry) (id : String) : Registry := { r with waiting := id :: r.waiting }

/-- Marks an id if a task waits under it. -/
def cancel (r : Registry) (id : String) : Bool × Registry :=
  if r.count id = 0 then (false, r)
  else (true, if r.isCancelled id then r else { r with marked := id :: r.marked })

/-- A task leaves the queue: it counts no longer, and takes its id's mark with it. -/
def begin (r : Registry) (id : String) : Bool × Registry :=
  (r.isCancelled id, ⟨r.waiting.erase id, r.marked.filter (· ≠ id)⟩)

/-- A task without an id is never registered. -/
def enqueueOptional (r : Registry) : Option String → Registry
  | some id => r.enqueue id
  | none => r

def beginOptional (r : Registry) : Option String → Bool × Registry
  | some id => r.begin id
  | none => (false, r)

theorem cancel_fst (r : Registry) (id : String) :
    (r.cancel id).1 = decide (0 < r.count id) := by
  by_cases h : r.count id = 0
  · simp [cancel, h]
  · have hpos : 0 < r.count id := Nat.pos_of_ne_zero h
    simp [cancel, h, hpos]

end Registry
end DatabaseSession
