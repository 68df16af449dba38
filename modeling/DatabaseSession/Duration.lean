import DatabaseSession.Binary64

namespace DatabaseSession

/-- A span of time in whole seconds and nanoseconds. -/
structure Duration where
  seconds : Nat
  nanos : Nat
  deriving DecidableEq, Repr

namespace Duration

def nanosPerSecond : Nat := 1000000000

/-- Nanoseconds beyond a second are carried; none when the seconds do not fit 64 bits. -/
def ofParts? (seconds nanos : Nat) : Option Duration :=
  let whole := seconds + nanos / nanosPerSecond
  if whole < Nat.pow 2 64 then some ⟨whole, nanos % nanosPerSecond⟩ else none

def toNanos (d : Duration) : Nat := d.seconds * nanosPerSecond + d.nanos

def ofNanos (n : Nat) : Duration := ⟨n / nanosPerSecond, n % nanosPerSecond⟩

/-- The exact value of a positive number of seconds, rounded to nanoseconds with a half going
to the even one; none when the seconds do not fit 64 bits. -/
def ofSeconds? (x : Binary64) : Option Duration :=
  if x.isFinite then
    let (num, den) := x.magnitude
    let d := ofNanos (roundHalfEven (num * nanosPerSecond) den)
    if d.seconds < Nat.pow 2 64 then some d else none
  else none

/-- Whole and fractional seconds are each rounded, and then their sum. -/
def toSeconds (d : Duration) : Binary64 :=
  (Binary64.ofRatio false d.seconds 1).addMagnitudes (Binary64.ofRatio false d.nanos nanosPerSecond)

end Duration
end DatabaseSession
