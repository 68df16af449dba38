import DatabaseSession.Binary64

namespace DatabaseSession.Binary64

/-- A decimal `0.d₁d₂… * 10 ^ point`, the digits most significant first. -/
structure Decimal where
  digits : List Nat
  point : Int
  deriving DecidableEq, Repr

/-- Four times the ends of the reals that round to a finite number, in units of `2 ^ -1074`. -/
def roundingEnds (x : Binary64) : Nat × Nat :=
  let unit := Nat.pow 2 x.binade
  let below := if x.fraction = 0 ∧ 1 < x.exponentField then unit else 2 * unit
  (4 * x.significand * unit - below, 4 * x.significand * unit + 2 * unit)

/-- Does `n / d` read back as `x`? The ends count when the significand is even. -/
def readsBack (x : Binary64) (n d : Nat) : Bool :=
  let (lo, hi) := x.roundingEnds
  let v := 4 * n * Nat.pow 2 1074
  if x.significand % 2 = 0 then decide (lo * d ≤ v) && decide (v ≤ hi * d)
  else decide (lo * d < v) && decide (v < hi * d)

/-- Which neighbour a value exactly between two decimals takes. -/
inductive Tie where
  | toEven
  | up
  deriving DecidableEq, Repr

/-- The counts of units `10 ^ e` just around `num / den`, the preferred one first. -/
def neighbours (tie : Tie) (num den : Nat) (e : Int) : List Nat :=
  let n := num * Nat.pow 10 (-e).toNat
  let d := den * Nat.pow 10 e.toNat
  let q := n / d
  let twice := 2 * (n % d)
  if twice < d ∨ twice = d ∧ tie = .toEven ∧ q % 2 = 0 then [q, q + 1] else [q + 1, q]

/-- The power of ten just above `num / den`: the least `k` with `num / den < 10 ^ k`, searched
from `k` upwards. -/
def decimalPoint (num den : Nat) : Nat → Int → Int
  | 0, k => k
  | fuel + 1, k =>
    if num * Nat.pow 10 (-k).toNat < den * Nat.pow 10 k.toNat then k
    else decimalPoint num den fuel (k + 1)

/-- The first digit count from `17 - fuel` up at which a neighbour reads back, as a count of
units and their power of ten. -/
def shortestFrom (x : Binary64) (tie : Tie) (num den : Nat) (k : Int) : Nat → Nat × Int
  | 0 => ((neighbours tie num den (k - 17)).headD 0, k - 17)
  | fuel + 1 =>
    let e := k - (17 - (fuel + 1) : Nat)
    let fits u := x.readsBack (u * Nat.pow 10 e.toNat) (Nat.pow 10 (-e).toNat)
    match (neighbours tie num den e).find? fits with
    | some u => (u, e)
    | none => shortestFrom x tie num den k fuel

def digitsOf (n : Nat) : List Nat :=
  (Nat.toDigits 10 n).map fun c => c.toNat - 48

/-- The decimal with the fewest digits that reads back as a finite number, and of those the
nearest. -/
def shortest (x : Binary64) (tie : Tie) : Decimal :=
  if x.significand = 0 then ⟨[0], 1⟩
  else
    let (num, den) := x.magnitude
    let guess : Int := floorLog2 num den * 30102 / 100000 - 1
    let k := decimalPoint num den 4 guess
    let (u, e) := shortestFrom x tie num den k 16
    let all := digitsOf u
    let kept := (all.reverse.dropWhile (· = 0)).reverse
    ⟨kept, e + all.length⟩

def digitText (ds : List Nat) : String :=
  String.ofList (ds.map Nat.digitChar)

def zeros (n : Nat) : String := String.ofList (List.replicate n '0')

/-- Positional text of a decimal, without a fraction when there is none. -/
def Decimal.plain (d : Decimal) : String :=
  let n := d.digits.length
  if d.point ≤ 0 then "0." ++ zeros (-d.point).toNat ++ digitText d.digits
  else if n ≤ d.point.toNat then digitText d.digits ++ zeros (d.point.toNat - n)
  else digitText (d.digits.take d.point.toNat) ++ "." ++ digitText (d.digits.drop d.point.toNat)

/-- Scientific text with one digit before the point and a signed exponent. -/
def Decimal.scientific (d : Decimal) : String :=
  let exponent := d.point - 1
  let tail := d.digits.drop 1
  digitText (d.digits.take 1)
    ++ (if tail.isEmpty then "" else "." ++ digitText tail)
    ++ (if exponent < 0 then "e-" else "e+") ++ toString exponent.natAbs

def signText (x : Binary64) : String := if x.isNegative then "-" else ""

/-- Shortest digits in positional layout, however long. -/
def positional (x : Binary64) : String :=
  if x.isNaN then "NaN"
  else if x.isFinite then x.signText ++ (x.shortest .up).plain
  else x.signText ++ "inf"

/-- A whole number's text gains a zero fraction. -/
def pointed (text : String) : String :=
  if text.toList.contains '.' then text else text ++ ".0"

/-- Shortest digits, positional from `0.00001` up to sixteen places and scientific elsewhere. -/
def compact (x : Binary64) : String :=
  let d := x.shortest .toEven
  x.signText ++ if -5 < d.point ∧ d.point ≤ 16 then pointed d.plain else d.scientific

end DatabaseSession.Binary64
