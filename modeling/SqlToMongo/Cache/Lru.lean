/-!
# Least recently used

A cache of bounded size that forgets the entry that was not used for the longest time. The newest
entry comes first.
-/

namespace SqlToMongo.Cache

structure Lru (α : Type) where
  capacity : Nat
  entries : List (String × α)
  deriving Inhabited, Repr

namespace Lru

variable {α : Type}

def empty (capacity : Nat) : Lru α := ⟨capacity, []⟩

def size (c : Lru α) : Nat := c.entries.length

/-- The value of a key; the cache does not change. -/
def peek? (c : Lru α) (key : String) : Option α := c.entries.lookup key

def contains (c : Lru α) (key : String) : Bool := (c.peek? key).isSome

/-- Forgets a key. -/
def erase (c : Lru α) (key : String) : Lru α :=
  { c with entries := c.entries.filter (·.1 != key) }

/-- Stores a value as the newest entry; beyond the capacity the oldest one is forgotten. -/
def insert (c : Lru α) (key : String) (value : α) : Lru α :=
  { c with entries := ((key, value) :: (c.erase key).entries).take c.capacity }

/-- The value of a key, which becomes the newest. -/
def get (c : Lru α) (key : String) : Option α × Lru α :=
  match c.peek? key with
  | some value => (some value, c.insert key value)
  | none => (none, c)

/-- The entry that was not used for the longest time. -/
def oldest? (c : Lru α) : Option (String × α) := c.entries.getLast?

/-- Forgets everything. -/
def clear (c : Lru α) : Lru α := { c with entries := [] }

theorem size_insert_le (c : Lru α) (key : String) (value : α) :
    (c.insert key value).size ≤ c.capacity := by
  simp only [size, insert, List.length_take]
  omega

end Lru

end SqlToMongo.Cache
