namespace DatabaseSession

/-- A 64-bit IEEE number, carried as its word. -/
structure Binary64 where
  bits : UInt64
  deriving DecidableEq, Repr, Inhabited

/-- The nearest whole number to `n / d`; a half goes to the even neighbour. -/
def roundHalfEven (n d : Nat) : Nat :=
  let q := n / d
  let r := n % d
  if 2 * r < d then q else if d < 2 * r then q + 1 else q + q % 2

namespace Binary64

-- Powers are written by name: they are those of `Nat` itself, whatever else is imported.

def isNegative (x : Binary64) : Bool := decide (Nat.pow 2 63 ≤ x.bits.toNat)

def exponentField (x : Binary64) : Nat := x.bits.toNat / Nat.pow 2 52 % 2048

def fraction (x : Binary64) : Nat := x.bits.toNat % Nat.pow 2 52

def isFinite (x : Binary64) : Bool := decide (x.exponentField < 2047)

def isNaN (x : Binary64) : Bool := !x.isFinite && decide (x.fraction ≠ 0)

def isZero (x : Binary64) : Bool := decide (x.bits.toNat % Nat.pow 2 63 = 0)

def isPositive (x : Binary64) : Bool := !x.isNegative && !x.isNaN && !x.isZero

/-- The significand with its hidden bit. -/
def significand (x : Binary64) : Nat :=
  if x.exponentField = 0 then x.fraction else Nat.pow 2 52 + x.fraction

/-- A finite number's magnitude is `significand * 2 ^ (binade - 1074)`. -/
def binade (x : Binary64) : Nat := x.exponentField - 1

/-- Numerator and denominator of a finite number's magnitude. -/
def magnitude (x : Binary64) : Nat × Nat :=
  (x.significand * Nat.pow 2 x.binade, Nat.pow 2 1074)

def signBit (negative : Bool) : Nat := if negative then Nat.pow 2 63 else 0

/-- The exponent of two just below `num / den`, both positive. -/
def floorLog2 (num den : Nat) : Int :=
  let k : Int := (Nat.log2 num : Int) - Nat.log2 den
  if den * Nat.pow 2 k.toNat ≤ num * Nat.pow 2 (-k).toNat then k else k - 1

/-- The number nearest to `num / den` with the given sign, a half going to the even
significand and an excess to infinity. -/
def ofRatio (negative : Bool) (num den : Nat) : Binary64 :=
  if num = 0 then ⟨UInt64.ofNat (signBit negative)⟩
  else
    let scale : Int := max (-1074) (floorLog2 num den - 52)
    let m := roundHalfEven (num * Nat.pow 2 (-scale).toNat) (den * Nat.pow 2 scale.toNat)
    let word := (scale + 1074).toNat * Nat.pow 2 52 + m
    ⟨UInt64.ofNat (signBit negative + min word (2047 * Nat.pow 2 52))⟩

def ofInt (i : Int) : Binary64 := ofRatio (decide (i < 0)) i.natAbs 1

/-- The number nearest to `± digits * 10 ^ exponent`. -/
def ofDecimal (negative : Bool) (digits : Nat) (exponent : Int) : Binary64 :=
  ofRatio negative (digits * Nat.pow 10 exponent.toNat) (Nat.pow 10 (-exponent).toNat)

/-- The sum of two finite numbers without sign, rounded once. -/
def addMagnitudes (x y : Binary64) : Binary64 :=
  ofRatio false (x.magnitude.1 + y.magnitude.1) (Nat.pow 2 1074)

end Binary64
end DatabaseSession
