import SqlToMongo.Cache.Memory
import SqlToMongo.Proofs.Cache.TwoQueue
import SqlToMongo.Proofs.Gzip.File

/-!
# What the cache in memory holds

An entry reads back as the value that it was made of, packed or not. Looking up and storing may
forget entries, expired or old ones, but the only entry that can be new afterwards is the one that
was stored.
-/

namespace SqlToMongo

namespace Text

theorem ofUtf8_utf8 (s : String) : ofUtf8 (utf8 s) = s := by
  have bytes : (⟨(utf8 s).toArray⟩ : ByteArray) = s.toByteArray := by simp [utf8, String.toUTF8]
  have valid : String.fromUTF8? ⟨(utf8 s).toArray⟩ = some s := by
    rw [bytes, String.fromUTF8?, dif_pos s.isValidUTF8]
    rfl
  rw [ofUtf8, valid]

end Text

namespace Cache

theorem Entry.bytes?_create (value : String) (lifetime : Lifetime) (now : Int) :
    (create value lifetime now).bytes? = some (Text.utf8 value) := by
  simp only [create, store, bytes?]
  split
  · cases made : Gzip.pack? (Text.utf8 value) with
    | none => rfl
    | some packed => exact Gzip.unpack?_of_pack? made
  · rfl

theorem Entry.value?_create (value : String) (lifetime : Lifetime) (now : Int) :
    (create value lifetime now).value? = some value := by
  rw [value?, bytes?_create, Option.map_some, Text.ofUtf8_utf8]

theorem Lru.mem_of_mem_get {α : Type} {c : Lru α} {key : String} {entry : String × α}
    (member : entry ∈ (c.get key).2.entries) : entry ∈ c.entries := by
  unfold get at member
  split at member
  next found =>
    rcases mem_of_mem_insert member with rfl | old
    · exact mem_of_peek? found
    · exact old
  next => exact member

namespace Memory

/-- A value that is given is that of an entry under the key. -/
theorem mem_of_get {m : Memory} {now : Int} {key value : String}
    (found : (m.get now key).1 = some value) :
    ∃ entry, (key, entry) ∈ m.entries.entries ∧ entry.value? = some value := by
  unfold get at found
  cases peeked : m.entries.peek? key with
  | none => simp [Lru.get, peeked] at found
  | some entry =>
    refine ⟨entry, Lru.mem_of_peek? peeked, ?_⟩
    simp only [Lru.get, peeked] at found
    split at found
    next => cases found
    next =>
      split at found
      next => cases found
      next read =>
        cases found
        exact read

theorem mem_of_mem_get {m : Memory} {now : Int} {key : String} {entry : String × Entry}
    (member : entry ∈ (m.get now key).2.entries.entries) : entry ∈ m.entries.entries := by
  have touched : entry ∈ (m.entries.get key).2.entries → entry ∈ m.entries.entries :=
    Lru.mem_of_mem_get
  unfold get at member
  split at member
  next => exact member
  next taken =>
    rw [taken] at touched
    split at member
    next => exact touched (Lru.mem_of_mem_erase member)
    next => split at member <;> exact touched member

theorem mem_of_mem_set {m : Memory} {now : Int} {key value : String} {entry : String × Entry}
    (member : entry ∈ (m.set now key value).entries.entries) :
    (entry.1 = key ∧ entry.2.value? = some value) ∨ entry ∈ m.entries.entries := by
  rcases Lru.mem_of_mem_insert member with rfl | old
  · exact .inl ⟨rfl, Entry.value?_create value m.lifetime now⟩
  · exact .inr old

end Memory

end Cache

end SqlToMongo
