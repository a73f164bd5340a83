import SqlToMongo.Cache.TwoQueue

/-!
# What a two-queue cache holds

The recent and the frequent part hold the entries; ghosts are keys without values. Every operation
may forget entries in whatever order, but the only entry that can be new afterwards is the one that
was stored.
-/

namespace SqlToMongo.Cache

variable {α : Type}

namespace Lru

theorem mem_of_peek? {c : Lru α} {key : String} {value : α} (found : c.peek? key = some value) :
    (key, value) ∈ c.entries := by
  obtain ⟨front, back, split, _⟩ := List.lookup_eq_some_iff.mp found
  simp [split]

theorem mem_of_mem_erase {c : Lru α} {key : String} {entry : String × α}
    (member : entry ∈ (c.erase key).entries) : entry ∈ c.entries :=
  (List.mem_filter.mp member).1

theorem mem_of_mem_insert {c : Lru α} {key : String} {value : α} {entry : String × α}
    (member : entry ∈ (c.insert key value).entries) :
    entry = (key, value) ∨ entry ∈ c.entries := by
  rcases List.mem_cons.mp (List.mem_of_mem_take member) with new | old
  · exact .inl new
  · exact .inr (mem_of_mem_erase old)

end Lru

namespace TwoQueue

/-- The entries of both parts. -/
def entries (c : TwoQueue α) : List (String × α) :=
  c.recent.entries ++ c.frequent.entries

theorem mem_entries {c : TwoQueue α} {entry : String × α} :
    entry ∈ c.entries ↔ entry ∈ c.recent.entries ∨ entry ∈ c.frequent.entries :=
  List.mem_append

theorem entries_create? {size : Nat} {c : TwoQueue α} (created : create? size = some c) :
    c.entries = [] := by
  unfold create? at created
  split at created
  next => simp at created
  next =>
    obtain rfl := Option.some.inj created
    rfl

/-- An empty cache gives nothing, and its first value again. -/
theorem get_of_create? {size : Nat} {c : TwoQueue α} (created : create? size = some c)
    (key : String) (value : α) :
    c.get key = (none, c) ∧ ((c.insert key value).get key).1 = some value := by
  unfold create? at created
  split at created
  next => simp at created
  next room =>
    obtain rfl := Option.some.inj created
    have positive : 0 < size := by omega
    have one : List.take size [(key, value)] = [(key, value)] :=
      List.take_of_length_le positive
    constructor
    · rfl
    · simp [insert, makeRoom, get, count, Lru.contains, Lru.peek?, Lru.empty, Lru.size, Lru.insert,
        Lru.erase, positive, one]

/-- A value that is given was stored under the key. -/
theorem mem_of_get {c : TwoQueue α} {key : String} {value : α}
    (found : (c.get key).1 = some value) : (key, value) ∈ c.entries := by
  unfold get at found
  split at found
  next frequent =>
    obtain rfl := Option.some.inj found
    exact mem_entries.mpr (.inr (Lru.mem_of_peek? frequent))
  next =>
    split at found
    next recent =>
      obtain rfl := Option.some.inj found
      exact mem_entries.mpr (.inl (Lru.mem_of_peek? recent))
    next => simp at found

/-- A miss changes nothing. -/
theorem get_of_miss {c : TwoQueue α} {key : String} (missing : (c.get key).1 = none) :
    (c.get key).2 = c := by
  cases frequent : c.frequent.peek? key with
  | some value => simp [get, frequent] at missing
  | none =>
    cases recent : c.recent.peek? key with
    | some value => simp [get, frequent, recent] at missing
    | none => simp [get, frequent, recent]

theorem mem_of_mem_get {c : TwoQueue α} {key : String} {entry : String × α}
    (member : entry ∈ (c.get key).2.entries) : entry ∈ c.entries := by
  unfold get at member
  split at member
  next frequent =>
    rcases mem_entries.mp member with recent | stored
    · exact mem_entries.mpr (.inl recent)
    · rcases Lru.mem_of_mem_insert stored with rfl | old
      · exact mem_entries.mpr (.inr (Lru.mem_of_peek? frequent))
      · exact mem_entries.mpr (.inr old)
  next =>
    split at member
    next recent =>
      -- The entry moves from the recent to the frequent part.
      rcases mem_entries.mp member with kept | stored
      · exact mem_entries.mpr (.inl (Lru.mem_of_mem_erase kept))
      · rcases Lru.mem_of_mem_insert stored with rfl | old
        · exact mem_entries.mpr (.inl (Lru.mem_of_peek? recent))
        · exact mem_entries.mpr (.inr old)
    next => exact member

theorem mem_of_mem_makeRoom {c : TwoQueue α} {ghostReturns : Bool} {entry : String × α}
    (member : entry ∈ (c.makeRoom ghostReturns).entries) : entry ∈ c.entries := by
  have dropped : entry ∈ c.recent.entries ∨ entry ∈ c.frequent.entries.dropLast →
      entry ∈ c.entries := by
    rintro (recent | frequent)
    · exact mem_entries.mpr (.inl recent)
    · exact mem_entries.mpr (.inr ((List.dropLast_sublist _).subset frequent))
  unfold makeRoom at member
  split at member
  next => exact member
  next =>
    dsimp only at member
    split at member
    next =>
      split at member
      next =>
        rcases mem_entries.mp member with kept | frequent
        · exact mem_entries.mpr (.inl (Lru.mem_of_mem_erase kept))
        · exact mem_entries.mpr (.inr frequent)
      next => exact dropped (mem_entries.mp member)
    next => exact dropped (mem_entries.mp member)

theorem mem_of_mem_insert {c : TwoQueue α} {key : String} {value : α} {entry : String × α}
    (member : entry ∈ (c.insert key value).entries) :
    entry = (key, value) ∨ entry ∈ c.entries := by
  unfold insert at member
  split at member
  next =>
    rcases mem_entries.mp member with recent | stored
    · exact .inr (mem_entries.mpr (.inl recent))
    · exact (Lru.mem_of_mem_insert stored).imp_right fun old => mem_entries.mpr (.inr old)
  next =>
    split at member
    next =>
      rcases mem_entries.mp member with kept | stored
      · exact .inr (mem_entries.mpr (.inl (Lru.mem_of_mem_erase kept)))
      · exact (Lru.mem_of_mem_insert stored).imp_right fun old => mem_entries.mpr (.inr old)
    next =>
      -- Room is made first, so what is left is a part of what was there.
      split at member
      next =>
        rcases mem_entries.mp member with recent | stored
        · exact .inr (mem_of_mem_makeRoom (mem_entries.mpr (.inl recent)))
        · exact (Lru.mem_of_mem_insert stored).imp_right
            fun old => mem_of_mem_makeRoom (mem_entries.mpr (.inr old))
      next =>
        rcases mem_entries.mp member with stored | frequent
        · exact (Lru.mem_of_mem_insert stored).imp_right
            fun old => mem_of_mem_makeRoom (mem_entries.mpr (.inl old))
        · exact .inr (mem_of_mem_makeRoom (mem_entries.mpr (.inr frequent)))

end TwoQueue

end SqlToMongo.Cache
