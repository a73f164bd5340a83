import SqlToMongo.Decimal.Binary64

/-!
# The fewest digits that read back

The decimal digits of a finite number: of all decimals that round to the number, one with the fewest
digits, and of those the nearest, a tie going to the even digit. A grid of `k` digits is tested only
at the two neighbours of the number on it: if any point of the grid rounds to the number, one of
them does.
-/

namespace SqlToMongo.Decimal

/-- A decimal `0.d₁d₂… · 10^point`, without trailing zeros. -/
structure Digits where
  digits : List Char
  point : Int
  deriving DecidableEq, Repr

namespace Shortest

/-- The decimals that round to a number lie between two bounds, given with the number itself over
one common denominator. The bounds count when the significand is even. -/
structure Interval where
  low : Nat
  value : Nat
  high : Nat
  den : Nat
  closed : Bool

/-- The neighbour below the first number of a binade is half as far as the one above. -/
def interval (x : Binary64) : Interval :=
  let m := x.significand
  let q := x.scale - 2
  let unit := Nat.pow 2 q.toNat
  let below := if x.fractionBits = 0 ∧ 1 < x.exponentBits then 1 else 2
  { low := (4 * m - below) * unit
    value := 4 * m * unit
    high := (4 * m + 2) * unit
    den := Nat.pow 2 (-q).toNat
    closed := m % 2 == 0 }

/-- Whether `n / scale` lies in the interval. -/
def Interval.holds (i : Interval) (n scale : Nat) : Bool :=
  if i.closed then i.low * scale ≤ n * i.den && n * i.den ≤ i.high * scale
  else i.low * scale < n * i.den && n * i.den < i.high * scale

/-- The exponent of the greatest power of ten that is not above `num / den`. -/
def log10Ratio (num den : Nat) : Int :=
  if den ≤ num then ((Nat.toDigits 10 (num / den)).length : Int) - 1
  else -((Nat.toDigits 10 ((den + num - 1) / num - 1)).length : Int)

/-- The point of the grid of multiples of `10^e` to take for the number, if one of its two
neighbours rounds to it. -/
def onGrid? (i : Interval) (e : Int) : Option Nat :=
  let up := Nat.pow 10 (-e).toNat
  let down := Nat.pow 10 e.toNat
  let num := i.value * up
  let den := i.den * down
  let low := num / den
  let fits (n : Nat) : Bool := i.holds (n * down) up
  let twice := 2 * (num % den)
  let nearest := if twice < den ∨ (twice = den ∧ low % 2 = 0) then low else low + 1
  -- The further neighbour can still lie in the interval, which is not symmetric at a power of two.
  let other := if nearest = low then low + 1 else low
  if fits nearest then some nearest
  else if fits other then some other
  else none

/-- The digits of `n · 10^e` without trailing zeros. -/
def toDigits (n : Nat) (e : Int) : Digits :=
  let ds := Nat.toDigits 10 n
  let kept := (ds.reverse.dropWhile (· == '0')).reverse
  ⟨kept, ds.length + e⟩

/-- Tries grids of more and more digits, `tries` of them. -/
def search (i : Interval) (top : Int) (tries : Nat) (k : Nat) : Digits :=
  match tries with
  | 0 => toDigits (i.value * Nat.pow 10 (k - top).toNat / i.den) (top - k)
  | tries + 1 =>
    match onGrid? i (top + 1 - k) with
    | some n => toDigits n (top + 1 - k)
    | none => search i top tries (k + 1)

end Shortest

/-- The fewest digits that read back as the magnitude of a finite number. Seventeen always do. -/
def shortest (x : Binary64) : Digits :=
  if x.isZero then ⟨[], 0⟩
  else
    let i := Shortest.interval x
    Shortest.search i (Shortest.log10Ratio i.value i.den) 17 1

end SqlToMongo.Decimal
