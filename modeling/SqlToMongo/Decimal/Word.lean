/-!
# Numbers of 64 bits
-/

namespace SqlToMongo.Decimal

/-- How many numbers 64 bits can hold. -/
def wordSize : Nat := 18446744073709551616

/-- The least number of 64 bits with a sign. -/
def leastInt64 : Int := -9223372036854775808

/-- Whether a number fits into 64 bits with a sign. -/
def fitsInt64 (n : Int) : Bool :=
  leastInt64 ≤ n && n < 9223372036854775808

end SqlToMongo.Decimal
