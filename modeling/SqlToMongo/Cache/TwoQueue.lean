import SqlToMongo.Cache.Lru

/-!
# Two queues

A cache in three parts: keys seen once are *recent*, keys seen again are *frequent*, and keys that
fell out of the recent part leave a *ghost*. A key that returns while its ghost is there goes to the
frequent part at once.
-/

namespace SqlToMongo.Cache

structure TwoQueue (α : Type) where
  size : Nat
  recent : Lru α
  frequent : Lru α
  ghosts : Lru Unit
  deriving Inhabited, Repr

namespace TwoQueue

variable {α : Type}

/-- The share of the recent part: a quarter. -/
def recentShare (c : TwoQueue α) : Nat := c.size / 4

/-- An empty cache with room for `size` entries and half as many ghosts; there must be room for
one. -/
def create? (size : Nat) : Option (TwoQueue α) :=
  if size / 2 = 0 then none
  else some ⟨size, .empty size, .empty size, .empty (size / 2)⟩

/-- The number of entries. -/
def count (c : TwoQueue α) : Nat := c.recent.size + c.frequent.size

/-- The value of a key, which becomes frequent. -/
def get (c : TwoQueue α) (key : String) : Option α × TwoQueue α :=
  match c.frequent.peek? key with
  | some value => (some value, { c with frequent := c.frequent.insert key value })
  | none =>
    match c.recent.peek? key with
    | some value =>
      (some value,
        { c with recent := c.recent.erase key, frequent := c.frequent.insert key value })
    | none => (none, c)

/-- Makes room for one entry. The recent part gives way when it is beyond its share, or at its share
unless a ghost returns; else the frequent part does. -/
def makeRoom (c : TwoQueue α) (ghostReturns : Bool) : TwoQueue α :=
  if c.count < c.size then c
  else
    let gives := c.recent.size > c.recentShare ||
      (c.recent.size == c.recentShare && !ghostReturns)
    match c.recent.oldest? with
    | some (key, _) =>
      if gives then
        { c with recent := c.recent.erase key, ghosts := c.ghosts.insert key () }
      else { c with frequent := { c.frequent with entries := c.frequent.entries.dropLast } }
    | none => { c with frequent := { c.frequent with entries := c.frequent.entries.dropLast } }

/-- Stores a value. -/
def insert (c : TwoQueue α) (key : String) (value : α) : TwoQueue α :=
  if c.frequent.contains key then { c with frequent := c.frequent.insert key value }
  else if c.recent.contains key then
    { c with recent := c.recent.erase key, frequent := c.frequent.insert key value }
  else if c.ghosts.contains key then
    -- The key was dropped not long ago: it is wanted often.
    let c := c.makeRoom true
    { c with ghosts := c.ghosts.erase key, frequent := c.frequent.insert key value }
  else
    let c := c.makeRoom false
    { c with recent := c.recent.insert key value }

end TwoQueue

end SqlToMongo.Cache
