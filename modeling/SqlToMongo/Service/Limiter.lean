import SqlToMongo.Config.Basic
import SqlToMongo.Decimal.Word

/-!
# Limiting requests

A bucket of tokens: a request takes one, and time fills them up again to the size of the bucket. The
rate is the quotient `num / den`, and tokens are counted in parts of `den`, so nothing is rounded.
-/

namespace SqlToMongo.Service

open Decimal

structure Limiter where
  num : Nat
  den : Nat
  bucket : Nat
  /-- What the bucket holds, in parts of a token. -/
  level : Nat
  /-- When the bucket was last filled. -/
  filledAt : Int
  deriving DecidableEq, Repr

namespace Limiter

/-- The tokens of a bucket without a size: what comes back in a second, or none where that is beyond 64
bits. -/
def defaultBucket (rate : Binary64) : Nat :=
  if fitsInt64 rate.ceilMagnitude then rate.ceilMagnitude else 0

/-- The limiter of the settings, full at a moment; there is none without a rate. -/
def create? (limit : RateLimit) (now : Int) : Option Limiter :=
  if limit.rate.isAboveZero && limit.rate.isFinite then
    let (num, den) := limit.rate.ratio
    let bucket := if limit.bucket ≤ 0 then defaultBucket limit.rate else limit.bucket.toNat
    some ⟨num, den, bucket, bucket * den, now⟩
  else none

/-- The limiter at a later moment. -/
def fill (l : Limiter) (now : Int) : Limiter :=
  { l with
    level := min (l.bucket * l.den) (l.level + (now - l.filledAt).toNat * l.num)
    filledAt := max l.filledAt now }

/-- Whether a request may pass, and the limiter after it. -/
def letPass (l : Limiter) (now : Int) : Bool × Limiter :=
  let l := l.fill now
  if l.den ≤ l.level then (true, { l with level := l.level - l.den }) else (false, l)

end Limiter

end SqlToMongo.Service
