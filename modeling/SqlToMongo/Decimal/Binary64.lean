/-!
# Double precision numbers

A number is held as its 64 bits: sign, eleven bits of exponent, 52 bits of fraction. A finite one
is `m · 2^q`. `ofRatio?` is the only rounding here: to nearest, ties to even.
-/

namespace SqlToMongo.Decimal

structure Binary64 where
  bits : UInt64
  deriving DecidableEq, Repr

namespace Binary64

/-- The weight of the sign among the bits. -/
def signWeight : Nat := 0x8000000000000000

/-- The weight of the least bit of the exponent, which is `2^52`. -/
def exponentWeight : Nat := 0x10000000000000

def isNegative (x : Binary64) : Bool :=
  x.bits.toNat / signWeight == 1

/-- The eleven bits of the exponent. -/
def exponentBits (x : Binary64) : Nat :=
  x.bits.toNat / exponentWeight % 2048

/-- The 52 bits of the fraction. -/
def fractionBits (x : Binary64) : Nat :=
  x.bits.toNat % exponentWeight

def isFinite (x : Binary64) : Bool :=
  x.exponentBits != 2047

def isNaN (x : Binary64) : Bool :=
  x.exponentBits == 2047 && x.fractionBits != 0

def isZero (x : Binary64) : Bool :=
  x.exponentBits == 0 && x.fractionBits == 0

/-- The `m` of a finite number's magnitude `m · 2^q`. -/
def significand (x : Binary64) : Nat :=
  if x.exponentBits = 0 then x.fractionBits else x.fractionBits + exponentWeight

/-- The `q` of a finite number's magnitude `m · 2^q`. -/
def scale (x : Binary64) : Int :=
  if x.exponentBits = 0 then -1074 else (x.exponentBits : Int) - 1075

/-- The number with sign, significand and scale, in the shape its bits hold: the significand is
below `2^53`, and below `2^52` only on the least scale. -/
def assemble (negative : Bool) (m : Nat) (q : Int) : Binary64 :=
  let sign := if negative then signWeight else 0
  if m < exponentWeight then ⟨UInt64.ofNat (sign + m)⟩
  else ⟨UInt64.ofNat (sign + (q + 1075).toNat * exponentWeight + (m - exponentWeight))⟩

/-- The quotient rounded to the nearest integer, ties to even. -/
def roundQuotient (num den : Nat) : Nat :=
  let low := num / den
  let twice := 2 * (num % den)
  if twice < den then low
  else if twice > den then low + 1
  else low + low % 2

/-- The exponent of the greatest power of two that is not above `num / den`. -/
def log2Ratio (num den : Nat) : Int :=
  let l : Int := (Nat.log2 num : Int) - Nat.log2 den
  if num * Nat.pow 2 (-l).toNat ≥ den * Nat.pow 2 l.toNat then l else l - 1

/-- The number nearest to `num / den`; `none` when that is beyond the greatest finite number. -/
def ofRatio? (negative : Bool) (num den : Nat) : Option Binary64 :=
  if num = 0 then some (assemble negative 0 0)
  else
    let q := max (log2Ratio num den - 52) (-1074)
    let m := roundQuotient (num * Nat.pow 2 (-q).toNat) (den * Nat.pow 2 q.toNat)
    -- Rounding up can carry into the next binade.
    let (m, q) := if m = 2 * exponentWeight then (exponentWeight, q + 1) else (m, q)
    if q > 971 then none else some (assemble negative m q)

/-- The number nearest to `n · 10^e`. -/
def ofDecimal? (negative : Bool) (n : Nat) (e : Int) : Option Binary64 :=
  ofRatio? negative (n * Nat.pow 10 e.toNat) (Nat.pow 10 (-e).toNat)

/-- Positive zero. -/
def zero : Binary64 := ⟨0⟩

/-- Positive infinity. -/
def infinity : Binary64 := ⟨0x7FF0000000000000⟩

/-- Negative infinity. -/
def negativeInfinity : Binary64 := ⟨0xFFF0000000000000⟩

/-- What is no number. -/
def notANumber : Binary64 := ⟨0x7FF8000000000001⟩

/-- The magnitude of a finite number as a quotient of naturals. -/
def ratio (x : Binary64) : Nat × Nat :=
  (x.significand * Nat.pow 2 x.scale.toNat, Nat.pow 2 (-x.scale).toNat)

/-- Below zero; neither zero nor a NaN is. -/
def isBelowZero (x : Binary64) : Bool :=
  x.isNegative && !x.isNaN && !x.isZero

/-- Above zero. -/
def isAboveZero (x : Binary64) : Bool :=
  !x.isNegative && !x.isNaN && !x.isZero

/-- The least integer that is not below a number's magnitude. -/
def ceilMagnitude (x : Binary64) : Nat :=
  let (num, den) := x.ratio
  (num + den - 1) / den

end Binary64

end SqlToMongo.Decimal
