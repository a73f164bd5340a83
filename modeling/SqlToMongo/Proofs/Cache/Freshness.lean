import Mathlib.Algebra.GroupWithZero.Nat
import Mathlib.Data.List.Dedup
import Mathlib.Data.List.Induction
import Mathlib.Data.List.Perm.Subperm
import SqlToMongo.Proofs.Cache.Lru
import SqlToMongo.Proofs.Cache.Memory

/-!
# What the cache in memory serves

A cache is asked to store and to look up values, at moments that never go back. An entry that it
holds is that of the last value stored under its key, since storing replaces and looking up only
moves or forgets. What is missing was forgotten: because a look-up found it past its lifetime, which
it stays, or to make room, which takes more keys than there are places.

The counts are followed apart from the entries. No look-up ends in an error, because every entry
reads back as the value it was made of.

## Main result

`serves_latest`: what look-ups give, how many entries there are, and what the counts add up to.
-/

namespace SqlToMongo.Cache

open Text

/-- Under a lifetime in seconds, what was stored at a moment is given until the lifetime is over. -/
def Lives (lifetime stored now : Int) : Prop :=
  0 < lifetime → now < stored + lifetime

instance (lifetime stored now : Int) : Decidable (Lives lifetime stored now) :=
  inferInstanceAs (Decidable (_ → _))

/-- What is past its lifetime stays past it. -/
theorem Lives.earlier {lifetime stored earlier now : Int} (lives : Lives lifetime stored now)
    (before : earlier ≤ now) : Lives lifetime stored earlier := by
  intro limited
  have := lives limited
  omega

section Lifetimes

variable {lifetime : Int} (fits : Decimal.fitsInt64 (lifetime * Lifetime.second) = true)

include fits

theorem Lifetime.nanoseconds_ofSeconds :
    (ofSeconds lifetime).nanoseconds = lifetime * second := by
  rw [Decimal.fitsInt64, Bool.and_eq_true, decide_eq_true_eq, decide_eq_true_eq,
    Decimal.leastInt64] at fits
  apply Int.bmod_eq_of_le <;>
  · rw [Decimal.wordSize]
    omega

theorem Lifetime.expiry_ofSeconds (now : Int) :
    (ofSeconds lifetime).expiry now = if 0 < lifetime then now + lifetime else 0 := by
  have whole := nanoseconds_ofSeconds fits
  have wholeSeconds : (ofSeconds lifetime).seconds = lifetime := by
    rw [seconds, whole]
    exact Int.mul_ediv_cancel _ (by decide)
  have limited : (ofSeconds lifetime).isLimited = true ↔ 0 < lifetime := by
    rw [isLimited, whole, decide_eq_true_eq, second]
    omega
  simp only [expiry, wholeSeconds, limited]

/-- Moments are not negative, so that no limited lifetime ends at zero, which is never. -/
theorem Entry.isExpired_create {stored : Int} (nonneg : 0 ≤ stored) (value : String) (now : Int) :
    (create value (.ofSeconds lifetime) stored).isExpired now = true ↔
      ¬Lives lifetime stored now := by
  have expires : (create value (.ofSeconds lifetime) stored).expiresAt =
      if 0 < lifetime then stored + lifetime else 0 := by
    rw [← Lifetime.expiry_ofSeconds fits]
    rfl
  simp only [isExpired, expires, Lives, Bool.and_eq_true, bne_iff_ne, decide_eq_true_eq]
  split <;> omega

end Lifetimes

namespace Memory

/-- How many entries a cache of a size in settings can hold. -/
def capacityOf (size : Int) : Nat :=
  if size ≤ 0 then 10000 else size.toNat

/-! ### Requests -/

/-- What is asked of the cache, and when. -/
inductive Request where
  | get (moment : Int) (key : String)
  | set (moment : Int) (key value : String)
  deriving DecidableEq, Repr

namespace Request

def moment : Request → Int
  | get moment _ => moment
  | set moment _ _ => moment

def isGet : Request → Bool
  | get .. => true
  | set .. => false

/-- The bytes of the value that is stored. -/
def bytes : Request → Nat
  | get .. => 0
  | set _ _ value => (utf8 value).length

def storedKey? : Request → Option String
  | get .. => none
  | set _ key _ => some key

/-- The moment and the value, where it is this key that is stored. -/
def stored? (key : String) : Request → Option (Int × String)
  | get .. => none
  | set moment k value => if k = key then some (moment, value) else none

theorem eq_of_stored? {r : Request} {key value : String} {stored : Int}
    (found : r.stored? key = some (stored, value)) : r = .set stored key value := by
  cases r with
  | get => cases found
  | set moment k v =>
    simp only [stored?, Option.ite_none_right_eq_some, Option.some.injEq, Prod.mk.injEq] at found
    obtain ⟨rfl, rfl, rfl⟩ := found
    rfl

end Request

def perform (m : Memory) : Request → Memory
  | .get moment key => (m.get moment key).2
  | .set moment key value => m.set moment key value

def run (m : Memory) (requests : List Request) : Memory :=
  requests.foldl perform m

/-- When a key was stored last, and with which value. -/
def lastStored? (key : String) (requests : List Request) : Option (Int × String) :=
  requests.reverse.findSome? (·.stored? key)

/-- The keys that were stored, each of them once. -/
def storedKeys (requests : List Request) : List String :=
  (requests.filterMap Request.storedKey?).dedup

theorem run_append_singleton (m : Memory) (requests : List Request) (r : Request) :
    m.run (requests ++ [r]) = (m.run requests).perform r := by
  rw [run, List.foldl_append]
  rfl

variable {requests : List Request} {key value : String} {stored : Int}

theorem lastStored?_get (now : Int) (other : String) :
    lastStored? key (requests ++ [.get now other]) = lastStored? key requests := by
  simp [lastStored?, Request.stored?]

theorem lastStored?_set (now : Int) (other value : String) :
    lastStored? key (requests ++ [.set now other value]) =
      if other = key then some (now, value) else lastStored? key requests := by
  by_cases same : other = key <;> simp [lastStored?, Request.stored?, same]

theorem mem_of_lastStored? (found : lastStored? key requests = some (stored, value)) :
    .set stored key value ∈ requests := by
  obtain ⟨r, member, last⟩ := List.exists_of_findSome?_eq_some found
  exact Request.eq_of_stored? last ▸ List.mem_reverse.mp member

theorem mem_storedKeys (member : .set stored key value ∈ requests) : key ∈ storedKeys requests :=
  List.mem_dedup.mpr (List.mem_filterMap.mpr ⟨_, member, rfl⟩)

theorem length_le_storedKeys {keys : List String} (distinct : keys.Nodup)
    (stored : ∀ key ∈ keys, key ∈ storedKeys requests) :
    keys.length ≤ (storedKeys requests).length :=
  (List.subperm_of_subset distinct stored).length_le

theorem length_storedKeys_le (r : Request) :
    (storedKeys requests).length ≤ (storedKeys (requests ++ [r])).length := by
  apply length_le_storedKeys (List.nodup_dedup _)
  intro key member
  simp only [storedKeys, List.mem_dedup, List.filterMap_append] at member ⊢
  exact List.mem_append_left _ member

/-! ### The entries -/

/-- What a cache holds after requests: every entry is that of the last value of its key, and while
there are no more keys than places, the only values it lost are past their lifetime. -/
structure Reflects (size lifetime : Int) (requests : List Request) (m : Memory) : Prop where
  configured : m.lifetime = .ofSeconds lifetime
  capacity : m.entries.capacity = capacityOf size
  bounded : m.entries.size ≤ m.entries.capacity
  distinct : m.entries.keys.Nodup
  latest : ∀ key entry, (key, entry) ∈ m.entries.entries →
    ∃ stored value, lastStored? key requests = some (stored, value) ∧
      entry = .create value (.ofSeconds lifetime) stored
  kept : (storedKeys requests).length ≤ capacityOf size → ∀ key stored value,
    lastStored? key requests = some (stored, value) →
      key ∈ m.entries.keys ∨ ∃ r ∈ requests, ¬Lives lifetime stored r.moment

namespace Reflects

variable {size lifetime : Int} {m : Memory}

theorem initial : Reflects size lifetime [] (create size lifetime) where
  configured := rfl
  capacity := rfl
  bounded := Nat.zero_le _
  distinct := List.nodup_nil
  latest _ _ member := absurd member List.not_mem_nil
  kept _ _ _ _ found := by cases found

/-- A look-up finds no entry, or one past its lifetime, or the last value. -/
theorem get_cases (fits : Decimal.fitsInt64 (lifetime * Lifetime.second) = true)
    (nonneg : ∀ r ∈ requests, 0 ≤ r.moment) (reflects : Reflects size lifetime requests m)
    (now : Int) (key : String) :
    (key ∉ m.entries.keys ∧ m.get now key = (none, { m with metrics := m.metrics.miss })) ∨
    ∃ stored value, lastStored? key requests = some (stored, value) ∧
      let entry := Entry.create value (.ofSeconds lifetime) stored
      (key, entry) ∈ m.entries.entries ∧
      ((¬Lives lifetime stored now ∧ m.get now key = (none, { m with
          entries := (m.entries.insert key entry).erase key, metrics := m.metrics.miss })) ∨
        (Lives lifetime stored now ∧ m.get now key = (some value, { m with
          entries := m.entries.insert key entry, metrics := m.metrics.hit }))) := by
  cases peeked : m.entries.peek? key with
  | none =>
    refine .inl ⟨Lru.not_mem_keys_of_peek? peeked, ?_⟩
    simp only [get, Lru.get, peeked]
  | some entry =>
    have held := Lru.mem_of_peek? peeked
    obtain ⟨stored, value, last, rfl⟩ := reflects.latest key entry held
    have since : 0 ≤ stored := nonneg _ (mem_of_lastStored? last)
    have expired := Entry.isExpired_create fits since value now
    refine .inr ⟨stored, value, last, held, ?_⟩
    by_cases lives : Lives lifetime stored now
    · have live : ¬(Entry.create value (.ofSeconds lifetime) stored).isExpired now = true :=
        fun lapsed => expired.mp lapsed lives
      refine .inr ⟨lives, ?_⟩
      simp only [get, Lru.get, peeked, if_neg live, Entry.value?_create]
    · have lapsed := expired.mpr lives
      refine .inl ⟨lives, ?_⟩
      simp only [get, Lru.get, peeked, if_pos lapsed]

/-- A look-up may forget a value that is past its lifetime. -/
theorem looked {m' : Memory} (reflects : Reflects size lifetime requests m) (now : Int)
    (key : String) (sameLifetime : m'.lifetime = m.lifetime)
    (sameCapacity : m'.entries.capacity = m.entries.capacity)
    (bounded : m'.entries.size ≤ m'.entries.capacity) (distinct : m'.entries.keys.Nodup)
    (fewer : ∀ entry ∈ m'.entries.entries, entry ∈ m.entries.entries)
    (forgotten : ∀ k ∈ m.entries.keys, k ∈ m'.entries.keys ∨
      ∀ stored value, lastStored? k requests = some (stored, value) → ¬Lives lifetime stored now) :
    Reflects size lifetime (requests ++ [.get now key]) m' where
  configured := sameLifetime.trans reflects.configured
  capacity := sameCapacity.trans reflects.capacity
  bounded := bounded
  distinct := distinct
  latest k entry member := by
    rw [lastStored?_get]
    exact reflects.latest k entry (fewer _ member)
  kept room k stored value found := by
    rw [lastStored?_get] at found
    have room := Nat.le_trans (length_storedKeys_le _) room
    rcases reflects.kept room k stored value found with held | ⟨r, member, lapsed⟩
    · rcases forgotten k held with kept | lapsed
      · exact .inl kept
      · exact .inr ⟨.get now key, by simp, lapsed stored value found⟩
    · exact .inr ⟨r, List.mem_append_left _ member, lapsed⟩

theorem get (fits : Decimal.fitsInt64 (lifetime * Lifetime.second) = true)
    (nonneg : ∀ r ∈ requests, 0 ≤ r.moment) (reflects : Reflects size lifetime requests m)
    (now : Int) (key : String) :
    Reflects size lifetime (requests ++ [.get now key]) (m.get now key).2 := by
  rcases reflects.get_cases fits nonneg now key with
    ⟨_, same⟩ | ⟨stored, value, last, held, cases⟩
  · rw [same]
    exact reflects.looked now key rfl rfl reflects.bounded reflects.distinct (fun _ => id)
      fun _ held => .inl held
  have moved (entry : String × Entry) : entry ∈ (m.entries.insert key _).entries ↔
      entry ∈ m.entries.entries :=
    Lru.mem_insert_of_mem reflects.bounded reflects.distinct held
  rcases cases with ⟨lapsed, same⟩ | ⟨_, same⟩
  · rw [same]
    refine reflects.looked now key rfl rfl ?_ ?_ ?_ ?_
    · exact Nat.le_trans (List.length_filter_le _ _) (Lru.size_insert_le _ _ _)
    · exact Lru.nodup_keys_erase (Lru.nodup_keys_insert reflects.distinct)
    · exact fun entry member => (moved entry).mp (Lru.mem_erase.mp member).1
    · intro k member
      by_cases same : k = key
      · subst same
        refine .inr fun stored' value' last' => ?_
        rw [last] at last'
        obtain ⟨rfl, rfl⟩ := Prod.mk.inj (Option.some.inj last')
        exact lapsed
      · obtain ⟨entry, inside, rfl⟩ := List.mem_map.mp member
        exact .inl (List.mem_map_of_mem (Lru.mem_erase.mpr ⟨(moved entry).mpr inside, same⟩))
  · rw [same]
    refine reflects.looked now key rfl rfl (Lru.size_insert_le _ _ _)
      (Lru.nodup_keys_insert reflects.distinct) (fun entry => (moved entry).mp) ?_
    intro k member
    obtain ⟨entry, inside, rfl⟩ := List.mem_map.mp member
    exact .inl (List.mem_map_of_mem ((moved entry).mpr inside))

/-- The keys that are held were stored. -/
theorem stored_of_mem (reflects : Reflects size lifetime requests m)
    (member : key ∈ m.entries.keys) : key ∈ storedKeys requests := by
  obtain ⟨⟨k, entry⟩, held, rfl⟩ := List.mem_map.mp member
  obtain ⟨stored, value, last, _⟩ := reflects.latest k entry held
  exact mem_storedKeys (mem_of_lastStored? last)

/-- Storing forgets other values only when there are more keys than places. -/
theorem set (reflects : Reflects size lifetime requests m) (now : Int) (key value : String) :
    Reflects size lifetime (requests ++ [.set now key value]) (m.set now key value) where
  configured := reflects.configured
  capacity := reflects.capacity
  bounded := Lru.size_insert_le _ _ _
  distinct := Lru.nodup_keys_insert reflects.distinct
  latest k entry member := by
    rw [lastStored?_set]
    rcases List.mem_cons.mp (List.mem_of_mem_take member) with same | old
    · obtain ⟨rfl, rfl⟩ := Prod.mk.inj same
      exact ⟨now, value, if_pos rfl, by rw [reflects.configured]⟩
    · obtain ⟨old, other⟩ := Lru.mem_erase.mp old
      rw [if_neg (Ne.symm other)]
      exact reflects.latest k entry old
  kept room k stored last found := by
    -- The keys behind the new one are distinct and were all stored, so there is a place for them.
    have stored : ∀ other ∈ key :: (m.entries.erase key).keys,
        other ∈ storedKeys (requests ++ [.set now key value]) := by
      have last : .set now key value ∈ requests ++ [.set now key value] := by simp
      refine List.forall_mem_cons.mpr ⟨mem_storedKeys last, fun other member => ?_⟩
      rw [Lru.keys_erase] at member
      have before := reflects.stored_of_mem (List.mem_of_mem_filter member)
      simp only [storedKeys, List.mem_dedup, List.filterMap_append] at before ⊢
      exact List.mem_append_left _ before
    have places := length_le_storedKeys (Lru.nodup_keys_cons_erase reflects.distinct key) stored
    rw [List.length_cons, Lru.keys, List.length_map] at places
    have held : (m.set now key value).entries.keys = key :: (m.entries.erase key).keys := by
      have free : (m.entries.erase key).size < m.entries.capacity := by
        rw [reflects.capacity]
        exact Nat.lt_of_lt_of_le places room
      exact congrArg (List.map Prod.fst) (Lru.entries_insert free)
    rw [lastStored?_set] at found
    by_cases same : key = k
    · exact .inl (held ▸ same ▸ List.mem_cons_self)
    · rw [if_neg same] at found
      have room := Nat.le_trans (length_storedKeys_le _) room
      rcases reflects.kept room k _ _ found with old | ⟨r, member, lapsed⟩
      · refine .inl ?_
        simp [held, Lru.keys_erase, old, Ne.symm same]
      · exact .inr ⟨r, List.mem_append_left _ member, lapsed⟩

end Reflects

/-! ### The counts -/

/-- What the counts come to after requests. -/
structure Counted (requests : List Request) (m : Metrics) : Prop where
  looked : m.hits + m.misses = requests.countP Request.isGet
  errors : m.errors = 0
  bytes : m.bytesCached + m.bytesSaved = (requests.map Request.bytes).sum

namespace Counted

variable {m : Metrics}

theorem look (counted : Counted requests m) (now : Int) (key : String) {m' : Metrics}
    (answer : m' = m.hit ∨ m' = m.miss) : Counted (requests ++ [.get now key]) m' where
  looked := by
    have := counted.looked
    rcases answer with rfl | rfl <;>
    · simp only [Metrics.hit, Metrics.miss, List.countP_append, List.countP_singleton,
        Request.isGet, if_true]
      omega
  errors := by rcases answer with rfl | rfl <;> exact counted.errors
  bytes := by
    have := counted.bytes
    rcases answer with rfl | rfl <;> simpa [Request.bytes, Metrics.hit, Metrics.miss] using this

theorem store (counted : Counted requests m) (now : Int) (key value : String)
    {size saved : Nat} (bytes : size + saved = (utf8 value).length) :
    Counted (requests ++ [.set now key value]) (m.stored size saved) where
  looked := by simpa [Request.isGet, Metrics.stored] using counted.looked
  errors := counted.errors
  bytes := by
    have := counted.bytes
    simp only [Metrics.stored, List.map_append, List.sum_append, List.map_singleton,
      List.sum_singleton, Request.bytes]
    omega

end Counted

/-! ### Runs -/

section Runs

variable (size : Int) {lifetime : Int}
  (fits : Decimal.fitsInt64 (lifetime * Lifetime.second) = true)

include fits

/-- One request after the other, from an empty cache. -/
theorem reflects_run (nonneg : ∀ r ∈ requests, 0 ≤ r.moment) :
    Reflects size lifetime requests ((create size lifetime).run requests) ∧
      Counted requests ((create size lifetime).run requests).metrics := by
  induction requests using List.reverseRecOn with
  | nil => exact ⟨.initial, rfl, rfl, rfl⟩
  | append_singleton requests r ih =>
    rw [List.forall_mem_append] at nonneg
    obtain ⟨reflects, counted⟩ := ih nonneg.1
    rw [run_append_singleton]
    cases r with
    | get now key =>
      refine ⟨reflects.get fits nonneg.1 now key, ?_⟩
      rcases reflects.get_cases fits nonneg.1 now key with
        ⟨_, same⟩ | ⟨_, _, _, _, ⟨_, same⟩ | ⟨_, same⟩⟩
      · rw [perform, same]
        exact counted.look now key (.inr rfl)
      · rw [perform, same]
        exact counted.look now key (.inr rfl)
      · rw [perform, same]
        exact counted.look now key (.inl rfl)
    | set now key value =>
      exact ⟨reflects.set now key value,
        counted.store now key value (Entry.length_create_add_saved value _ now)⟩

/-- What a look-up gives after requests none of which is later than it. -/
theorem get_run (nonneg : ∀ r ∈ requests, 0 ≤ r.moment) {now : Int}
    (past : ∀ r ∈ requests, r.moment ≤ now) (key : String) :
    let given := (((create size lifetime).run requests).get now key).1
    (∀ value, given = some value → ∃ stored,
      lastStored? key requests = some (stored, value) ∧ Lives lifetime stored now) ∧
    ((storedKeys requests).length ≤ capacityOf size → ∀ stored value,
      lastStored? key requests = some (stored, value) → Lives lifetime stored now →
        given = some value) := by
  have reflects := (reflects_run size fits nonneg).1
  rcases reflects.get_cases fits nonneg now key with
    ⟨absent, same⟩ | ⟨stored, value, last, held, ⟨lapsed, same⟩ | ⟨lives, same⟩⟩
  · rw [same]
    refine ⟨fun _ found => (by cases found), fun room stored value last lives => ?_⟩
    rcases reflects.kept room key stored value last with held | ⟨r, member, lapsed⟩
    · exact absurd held absent
    · exact absurd (lives.earlier (past r member)) lapsed
  · rw [same]
    refine ⟨fun _ found => (by cases found), fun _ stored' value' last' lives => ?_⟩
    obtain ⟨rfl, rfl⟩ := Prod.mk.inj (Option.some.inj (last.symm.trans last'))
    exact absurd lives lapsed
  · rw [same]
    refine ⟨fun value' found => ?_, fun _ stored' value' last' _ => ?_⟩
    · obtain rfl := Option.some.inj found
      exact ⟨stored, last, lives⟩
    · obtain ⟨rfl, rfl⟩ := Prod.mk.inj (Option.some.inj (last.symm.trans last'))
      rfl

/-- Over any run of requests whose moments do not go back, every look-up gives the last value of its
key or nothing, and never a value past its lifetime. It gives the value while there are no more
keys than places. There are never more entries than places, every look-up is a hit or a miss, and
the bytes that are kept and those that are saved are the bytes of all the values that were
stored. -/
theorem serves_latest (ordered : (requests.map Request.moment).Pairwise (· ≤ ·))
    (nonneg : ∀ r ∈ requests, 0 ≤ r.moment) :
    (∀ before now key after, requests = before ++ .get now key :: after →
      let given := (((create size lifetime).run before).get now key).1
      (∀ value, given = some value → ∃ stored,
        lastStored? key before = some (stored, value) ∧ Lives lifetime stored now) ∧
      ((storedKeys before).length ≤ capacityOf size → ∀ stored value,
        lastStored? key before = some (stored, value) → Lives lifetime stored now →
          given = some value)) ∧
    let m := (create size lifetime).run requests
    m.size ≤ capacityOf size ∧
    m.metrics.hits + m.metrics.misses + m.metrics.errors = requests.countP Request.isGet ∧
    m.metrics.errors = 0 ∧
    m.metrics.bytesCached + m.metrics.bytesSaved = (requests.map Request.bytes).sum := by
  constructor
  · rintro before now key after rfl
    rw [List.map_append, List.map_cons, List.pairwise_append] at ordered
    refine get_run size fits (fun r member => nonneg r (by simp [member])) (fun r member => ?_) key
    exact ordered.2.2 _ (List.mem_map_of_mem member) now (by simp [Request.moment])
  · obtain ⟨reflects, counted⟩ := reflects_run size fits nonneg
    refine ⟨reflects.capacity ▸ reflects.bounded, ?_, counted.errors, counted.bytes⟩
    rw [counted.errors, counted.looked, Nat.add_zero]

end Runs

/-- A value that was replaced lives from then on, for a minute and no longer. -/
theorem serves_latest_replaced :
    let requests : List Request := [.set 0 "a" "x", .set 10 "b" "y", .set 20 "a" "z",
      .get 79 "a", .get 80 "a"]
    Decimal.fitsInt64 (60 * Lifetime.second) = true ∧
    (requests.map Request.moment).Pairwise (· ≤ ·) ∧ (∀ r ∈ requests, 0 ≤ r.moment) ∧
    (((create 2 60).run (requests.take 3)).get 79 "a").1 = some "z" ∧
    (((create 2 60).run (requests.take 4)).get 80 "a").1 = none ∧
    ((create 2 60).run requests).size ≤ 2 := by
  intro requests
  have fits : Decimal.fitsInt64 (60 * Lifetime.second) = true := by decide
  have ordered : (requests.map Request.moment).Pairwise (· ≤ ·) := by decide
  have nonneg : ∀ r ∈ requests, 0 ≤ r.moment := by decide
  obtain ⟨served, bounded, _⟩ := serves_latest 2 fits ordered nonneg
  refine ⟨fits, ordered, nonneg, ?_, ?_, bounded⟩
  · exact (served (requests.take 3) 79 "a" (requests.drop 4) rfl).2 (by decide) 20 "z"
      (by decide) (by decide)
  · rw [Option.eq_none_iff_forall_ne_some]
    intro value found
    obtain ⟨stored, last, lives⟩ :=
      (served (requests.take 4) 80 "a" (requests.drop 5) rfl).1 value found
    have latest : lastStored? "a" (requests.take 4) = some (20, "z") := by decide
    obtain ⟨rfl, rfl⟩ := Prod.mk.inj (Option.some.inj (latest.symm.trans last))
    exact absurd lives (by decide)

end Memory

end SqlToMongo.Cache
