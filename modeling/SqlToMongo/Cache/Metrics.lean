import SqlToMongo.Decimal.Binary64

/-!
# What a cache counts
-/

namespace SqlToMongo.Cache

open Decimal

structure Metrics where
  hits : Nat := 0
  misses : Nat := 0
  errors : Nat := 0
  bytesCached : Nat := 0
  bytesSaved : Nat := 0
  deriving DecidableEq, Inhabited, Repr

namespace Metrics

def hit (m : Metrics) : Metrics := { m with hits := m.hits + 1 }

def miss (m : Metrics) : Metrics := { m with misses := m.misses + 1 }

def error (m : Metrics) : Metrics := { m with errors := m.errors + 1 }

/-- A value was stored in `size` bytes, `saved` fewer than it has. -/
def stored (m : Metrics) (size saved : Nat) : Metrics :=
  { m with bytesCached := m.bytesCached + size, bytesSaved := m.bytesSaved + saved }

/-- The share of hits among hits and misses; zero before the first of them. -/
def hitRate (m : Metrics) : Binary64 :=
  let total := m.hits + m.misses
  if total = 0 then .zero else (Binary64.ofRatio? false m.hits total).getD .zero

end Metrics

end SqlToMongo.Cache
