import Mathlib.Data.List.Chain
import SqlToMongo.Gzip.Deflate
import SqlToMongo.Gzip.Inflate
import SqlToMongo.Proofs.Gzip.Bits

/-!
# Bytes and copies

The data is cut into pieces that give it back when they are put together one after another. The
length and the distance of every copy lie in the ranges of the symbols, and are read back from the
symbol and the extra bits.

## Main results

`inRange?_rangeOf`: a number in the ranges is read back.
`expands_pieces`: the pieces of the data expand to the data.
-/

namespace SqlToMongo.Gzip

/-! ### Ranges -/

/-- The ranges hold the numbers from `low` up to `high`: each one reaches to the next. -/
structure Covers (ranges : List (Nat × Nat)) (low high : Nat) : Prop where
  starts : ranges.head?.map Prod.fst = some low
  reach : ranges.IsChain fun r s => r.1 < s.1 ∧ s.1 ≤ r.1 + 2 ^ r.2
  stops : ∀ r ∈ ranges.getLast?, high ≤ r.1 + 2 ^ r.2

theorem covers_lengthRanges : Covers lengthRanges 3 259 :=
  ⟨rfl, by decide, by decide⟩

theorem covers_distanceRanges : Covers distanceRanges 1 32769 :=
  ⟨rfl, by decide, by decide⟩

/-- A number between the ends is in the last range that starts at or below it. -/
theorem Covers.exists_range {ranges : List (Nat × Nat)} {low high n : Nat}
    (covers : Covers ranges low high) (least : low ≤ n) (below : n < high) :
    ∃ before base width after, ranges = before ++ (base, width) :: after ∧ base ≤ n ∧
      n < base + 2 ^ width ∧ ∀ r ∈ after, n < r.1 := by
  obtain ⟨starts, reach, stops⟩ := covers
  induction ranges generalizing low with
  | nil => cases starts
  | cons r ranges ih =>
    obtain rfl : r.1 = low := by simpa using starts
    cases ranges with
    | nil =>
      have bound := stops r rfl
      exact ⟨[], r.1, r.2, [], rfl, least, by omega, by simp⟩
    | cons s ranges =>
      obtain ⟨⟨_, next⟩, rest⟩ := List.isChain_cons_cons.mp reach
      by_cases further : s.1 ≤ n
      · obtain ⟨before, base, width, after, whole, inside⟩ :=
          ih further rfl rest fun q last => stops q (by simpa using last)
        exact ⟨r :: before, base, width, after, by rw [whole, List.cons_append], inside⟩
      · refine ⟨[], r.1, r.2, s :: ranges, rfl, least, by omega, ?_⟩
        -- The ranges behind the next one start even later.
        have later : (s :: ranges).Pairwise fun a b => a.1 < b.1 :=
          List.isChain_iff_pairwise.mp (rest.imp fun _ _ both => both.1)
        intro q member
        rcases List.mem_cons.mp member with rfl | member
        · omega
        · have := List.rel_of_pairwise_cons later member
          omega

theorem rangeOf_append {before after : List (Nat × Nat)} {base width n : Nat} (least : base ≤ n)
    (later : ∀ r ∈ after, n < r.1) :
    rangeOf (before ++ (base, width) :: after) n = (before.length, lowFirst width (n - base)) := by
  have none : (after.zipIdx (before.length + 1)).filter (·.1.1 ≤ n) = [] := by
    rw [List.filter_eq_nil_iff]
    intro entry member
    have bound := later entry.1 (List.fst_mem_of_mem_zipIdx member)
    simpa using bound
  have last : ((before ++ (base, width) :: after).zipIdx.filter (·.1.1 ≤ n)).getLast? =
      some ((base, width), before.length) := by
    rw [List.zipIdx_append, List.zipIdx_cons, List.filter_append,
      List.filter_cons_of_pos (by simpa), Nat.zero_add, none, List.getLast?_concat]
  rw [rangeOf, last]

theorem inRange?_rangeOf {ranges : List (Nat × Nat)} {low high n : Nat}
    (covers : Covers ranges low high) (least : low ≤ n) (below : n < high) (rest : List Bool) :
    (rangeOf ranges n).1 < ranges.length ∧
      inRange? ranges (rangeOf ranges n).1 ((rangeOf ranges n).2 ++ rest) = some (n, rest) := by
  obtain ⟨before, base, width, after, rfl, start, stop, later⟩ := covers.exists_range least below
  rw [rangeOf_append start later]
  have fits : n - base < 2 ^ width := by omega
  refine ⟨by simp, ?_⟩
  simp [inRange?, take?_lowFirst fits, Nat.add_sub_cancel' start]

/-! ### Expanding pieces -/

/-- The bytes of the pieces, one piece after another behind what is there, are the result. Lengths
and distances have symbols, and no copy goes back beyond the start. -/
inductive Expands : Array UInt8 → List Piece → Array UInt8 → Prop where
  | nil {data : Array UInt8} : Expands data [] data
  | byte {data result : Array UInt8} {b : UInt8} {rest : List Piece} :
      Expands (data.push b) rest result → Expands data (.byte b :: rest) result
  | copy {data result : Array UInt8} {length distance : Nat} {rest : List Piece} :
      3 ≤ length → length < 259 → 1 ≤ distance → distance < 32769 → distance ≤ data.size →
      Expands (appendCopy data distance length) rest result →
      Expands data (.copy length distance :: rest) result

section

variable {data : Array UInt8}

/-- Copying bytes that agree extends a beginning of the data to a longer one. -/
theorem appendCopy_agreeing {earlier i limit : Nat} (back : earlier < i) (start : i ≤ data.size) :
    i + agreeing data earlier i limit ≤ data.size ∧
      appendCopy (data.extract 0 i) (i - earlier) (agreeing data earlier i limit) =
        data.extract 0 (i + agreeing data earlier i limit) := by
  induction limit generalizing earlier i with
  | zero => exact ⟨start, rfl⟩
  | succ limit ih =>
    rw [agreeing]
    split
    next both =>
      obtain ⟨more, same⟩ := both
      obtain ⟨bound, copied⟩ := @ih (earlier + 1) (i + 1) (by omega) more
      refine ⟨by omega, ?_⟩
      have size : (data.extract 0 i).size = i := by simp [Nat.min_eq_left start]
      -- The byte that is copied is the one that was compared.
      have byte : (data.extract 0 i).getD (i - (i - earlier)) 0 = data[i] := by
        have here : i - (i - earlier) = earlier := by omega
        simpa [here, back, back.trans more, more] using same
      rw [appendCopy, size, byte, Array.push_extract_getElem more, Nat.min_eq_left (by omega)]
      rwa [Nat.add_sub_add_right, Nat.add_right_comm] at copied
    next => exact ⟨start, rfl⟩

theorem agreeing_le (data : Array UInt8) (i j limit : Nat) : agreeing data i j limit ≤ limit := by
  induction limit generalizing i j with
  | zero => exact Nat.le_refl 0
  | succ limit ih =>
    rw [agreeing]
    split
    · have := ih (i + 1) (j + 1)
      omega
    · omega

/-- Every place in the table is an earlier one. -/
def Earlier (seen : Std.HashMap Nat Nat) (i : Nat) : Prop :=
  ∀ triple place : Nat, seen[triple]? = some place → place < i

theorem Earlier.insert {seen : Std.HashMap Nat Nat} {i : Nat} (earlier : Earlier seen i)
    (triple : Nat) {j : Nat} (later : i < j) : Earlier (seen.insert triple i) j := by
  intro other place found
  rw [Std.HashMap.getElem?_insert] at found
  split at found
  next =>
    obtain rfl := Option.some.inj found
    exact later
  next => exact (earlier other place found).trans later

theorem copyAt?_eq_some {seen : Std.HashMap Nat Nat} {i length distance : Nat}
    (earlier : Earlier seen i) (found : copyAt? data seen i = some (distance, length)) :
    ∃ place < i, distance = i - place ∧ length = agreeing data place i 258 ∧ 3 ≤ length ∧
      distance < 32769 := by
  simp only [copyAt?, Option.bind_eq_bind] at found
  split at found
  next => cases found
  next =>
    obtain ⟨place, looked, found⟩ := Option.bind_eq_some_iff.mp found
    split at found
    next => cases found
    next fits =>
      obtain ⟨rfl, rfl⟩ := Prod.mk.inj (Option.some.inj found)
      exact ⟨place, earlier _ place looked, rfl, rfl, by omega, by omega⟩

/-- Cutting goes on from a beginning of the data, by induction on the steps. -/
theorem expands_cut {steps i : Nat} {seen : Std.HashMap Nat Nat} (enough : data.size ≤ i + steps)
    (start : i ≤ data.size) (earlier : Earlier seen i) :
    Expands (data.extract 0 i) (cut data steps i seen) data := by
  induction steps generalizing i seen with
  | zero =>
    have whole : data.extract 0 i = data := by
      rw [Nat.le_antisymm start enough, Array.extract_size]
    rw [cut, whole]
    exact .nil
  | succ steps ih =>
    rw [cut]
    split
    next more =>
      cases found : copyAt? data seen i with
      | some copy =>
        obtain ⟨distance, length⟩ := copy
        obtain ⟨place, back, rfl, rfl, long, near⟩ := copyAt?_eq_some earlier found
        obtain ⟨bound, copied⟩ := @appendCopy_agreeing data place i 258 back start
        have short := agreeing_le data place i 258
        have rest := @ih (i + agreeing data place i 258) _ (by omega) bound
          (earlier.insert (tripleAt data i) (by omega))
        rw [← copied] at rest
        refine .copy long (by omega) (by omega) near ?_ rest
        rw [Array.size_extract]
        omega
      | none =>
        have rest := @ih (i + 1) _ (by omega) more (earlier.insert (tripleAt data i) (by omega))
        rw [← Nat.min_eq_left (Nat.zero_le i), ← Array.push_extract_getElem more] at rest
        exact .byte rest
    next stop =>
      have whole : data.extract 0 i = data := by
        rw [Nat.le_antisymm start (Nat.le_of_not_lt stop), Array.extract_size]
      rw [whole]
      exact .nil

end

theorem expands_pieces (data : List UInt8) : Expands #[] (pieces data) data.toArray := by
  have none : Earlier ∅ 0 := by simp [Earlier]
  have cut := @expands_cut data.toArray data.length 0 ∅ (by simp) (by simp) none
  rwa [Array.extract_zero] at cut

end SqlToMongo.Gzip
