import Mathlib.Data.List.Nodup
import SqlToMongo.Proofs.Cache.TwoQueue

/-!
# What a least recently used cache keeps

The keys of a cache are distinct, so a look-up finds every entry that is held. Where there is room,
storing forgets nothing but the former value of the key; storing what is held already only moves it.

## Main results

`nodup_keys_insert`: storing keeps the keys distinct.
`entries_insert`: what storing leaves when there is room.
`mem_insert_of_mem`: moving an entry to the front forgets none.
-/

namespace SqlToMongo.Cache.Lru

variable {α : Type} {c : Lru α} {key : String} {value : α}

def keys (c : Lru α) : List String := c.entries.map (·.1)

theorem keys_erase : (c.erase key).keys = c.keys.filter (· != key) := by
  simp only [keys, erase, List.filter_map]
  rfl

theorem mem_erase {entry : String × α} :
    entry ∈ (c.erase key).entries ↔ entry ∈ c.entries ∧ entry.1 ≠ key := by
  simp [erase]

theorem nodup_keys_erase (distinct : c.keys.Nodup) : (c.erase key).keys.Nodup := by
  rw [keys_erase]
  exact distinct.filter _

theorem nodup_keys_cons_erase (distinct : c.keys.Nodup) (key : String) :
    (key :: (c.erase key).keys).Nodup := by
  refine List.nodup_cons.mpr ⟨?_, nodup_keys_erase distinct⟩
  simp [keys_erase]

theorem nodup_keys_insert (distinct : c.keys.Nodup) : (c.insert key value).keys.Nodup := by
  have whole := nodup_keys_cons_erase distinct key
  rw [keys, insert, List.map_take]
  exact (List.take_sublist _ _).nodup whole

/-- Where there is room, nothing is forgotten but the former value of the key. -/
theorem entries_insert (room : (c.erase key).size < c.capacity) :
    (c.insert key value).entries = (key, value) :: (c.erase key).entries :=
  List.take_of_length_le room

/-- Every entry that is held is found. -/
theorem peek?_eq_some_iff (distinct : c.keys.Nodup) :
    c.peek? key = some value ↔ (key, value) ∈ c.entries := by
  refine ⟨mem_of_peek?, fun member => ?_⟩
  obtain ⟨front, back, split⟩ := List.append_of_mem member
  rw [keys, split, List.map_append, List.nodup_append] at distinct
  refine List.lookup_eq_some_iff.mpr ⟨front, back, split, fun entry before => ?_⟩
  have other := distinct.2.2 entry.1 (List.mem_map_of_mem before) key (by simp)
  simpa using Ne.symm other

theorem not_mem_keys_of_peek? (absent : c.peek? key = none) : key ∉ c.keys := by
  intro member
  obtain ⟨entry, held, same⟩ := List.mem_map.mp member
  have other := List.lookup_eq_none_iff.mp absent entry held
  simp [same] at other

theorem size_erase_lt (member : key ∈ c.keys) : (c.erase key).size < c.size := by
  obtain ⟨entry, held, rfl⟩ := List.mem_map.mp member
  exact List.length_filter_lt_length_iff_exists.mpr ⟨entry, held, by simp⟩

/-- An entry that is stored again is moved to the front, and no other is forgotten. -/
theorem mem_insert_of_mem (bounded : c.size ≤ c.capacity) (distinct : c.keys.Nodup)
    (held : (key, value) ∈ c.entries) {entry : String × α} :
    entry ∈ (c.insert key value).entries ↔ entry ∈ c.entries := by
  have smaller : (c.erase key).size < c.size := size_erase_lt (List.mem_map_of_mem held)
  rw [entries_insert (by omega), List.mem_cons, mem_erase]
  constructor
  · rintro (rfl | ⟨member, _⟩)
    · exact held
    · exact member
  · intro member
    by_cases same : entry.1 = key
    · -- The keys are distinct, so the key has this value only.
      have found := (peek?_eq_some_iff distinct).mpr held
      obtain ⟨k, v⟩ := entry
      obtain rfl : k = key := same
      rw [(peek?_eq_some_iff distinct).mpr member] at found
      exact .inl (by rw [Option.some.inj found])
    · exact .inr ⟨member, same⟩

end SqlToMongo.Cache.Lru
