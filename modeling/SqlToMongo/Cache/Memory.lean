import SqlToMongo.Cache.Entry
import SqlToMongo.Cache.Lru
import SqlToMongo.Cache.Metrics

/-!
# The cache in memory

The conversions used last are kept, each for its lifetime. Operations take the moment at which they
happen.
-/

namespace SqlToMongo.Cache

structure Memory where
  entries : Lru Entry
  lifetime : Lifetime
  metrics : Metrics
  deriving Repr

namespace Memory

/-- The number of entries where none above zero is set. -/
def defaultSize : Nat := 10000

/-- An empty cache; sizes and lifetimes in seconds come from settings. -/
def create (size lifetime : Int) : Memory :=
  ⟨.empty (if size ≤ 0 then defaultSize else size.toNat), .ofSeconds lifetime, {}⟩

def size (m : Memory) : Nat := m.entries.size

/-- The value of a key. An entry past its lifetime is forgotten; one that does not unpack stays, and
is an error. -/
def get (m : Memory) (now : Int) (key : String) : Option String × Memory :=
  match m.entries.get key with
  | (none, _) => (none, { m with metrics := m.metrics.miss })
  | (some entry, entries) =>
    if entry.isExpired now then
      (none, { m with entries := entries.erase key, metrics := m.metrics.miss })
    else
      match entry.value? with
      | none => (none, { m with entries, metrics := m.metrics.error })
      | some value => (some value, { m with entries, metrics := m.metrics.hit })

/-- Stores an entry as it is. -/
def put (m : Memory) (key : String) (entry : Entry) : Memory :=
  { m with entries := m.entries.insert key entry }

/-- Stores a value. -/
def set (m : Memory) (now : Int) (key value : String) : Memory :=
  let entry := Entry.create value m.lifetime now
  { m.put key entry with metrics := m.metrics.stored entry.data.length (entry.saved value) }

/-- Forgets all entries; the counts stay. -/
def close (m : Memory) : Memory := { m with entries := m.entries.clear }

end Memory

end SqlToMongo.Cache
