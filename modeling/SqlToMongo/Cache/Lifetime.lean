import SqlToMongo.Decimal.Word

/-!
# How long entries live

Lifetimes are set in seconds and kept in nanoseconds, in 64 bits with a sign; what does not fit wraps
around. Moments are seconds of a clock.
-/

namespace SqlToMongo.Cache

structure Lifetime where
  nanoseconds : Int
  deriving DecidableEq, Repr

namespace Lifetime

/-- Nanoseconds in a second. -/
def second : Int := 1000000000

/-- Nanoseconds in a millisecond. -/
def millisecond : Int := 1000000

def ofSeconds (n : Int) : Lifetime := ⟨Int.bmod (n * second) Decimal.wordSize⟩

/-- The whole seconds of a lifetime. -/
def seconds (t : Lifetime) : Int := t.nanoseconds / second

/-- Entries expire only under a lifetime above zero. -/
def isLimited (t : Lifetime) : Bool := 0 < t.nanoseconds

/-- When an entry that is stored at a moment expires; zero is never. -/
def expiry (t : Lifetime) (now : Int) : Int :=
  if t.isLimited then now + t.seconds else 0

/-- The words that tell a server to forget an entry in time: whole seconds, else milliseconds. -/
def serverWords (t : Lifetime) : List String :=
  if t.isLimited then
    if t.nanoseconds % second = 0 then ["ex", toString t.seconds]
    else ["px", toString (max 1 (t.nanoseconds / millisecond))]
  else if t.nanoseconds = -1 then ["keepttl"]
  else []

end Lifetime

end SqlToMongo.Cache
