import Mathlib.Algebra.BigOperators.Group.Finset.Basic
import Mathlib.Algebra.BigOperators.Ring.Finset
import Mathlib.Algebra.Order.Field.Rat
import Mathlib.Tactic.FieldSimp
import Mathlib.Tactic.Linarith
import SqlToMongo.Gzip.Huffman
import SqlToMongo.Proofs.Gzip.Bits

/-!
# Canonical codes

A code is complete when its words leave no room for another one: with the weight `2⁻ˡ` for a word of
`l` bits, the weights add up to one. The words of a complete code are read back whatever follows
them. At each length the reader knows the number of the first word. The bits read so far are below
the end of the words of this length only when they are one of them, since every longer word is
greater.

## Main result

`exists_reads_of_complete`: the words of a complete code are read as their symbols.
-/

namespace SqlToMongo.Gzip

namespace Code

/-! ### Reading one word -/

/-- The number of the first word after lengths with these counts. -/
def firstAfter (first : Nat) (counts : List Nat) : Nat :=
  counts.foldl (fun first count => 2 * (first + count)) first

@[simp]
theorem firstAfter_nil (first : Nat) : firstAfter first [] = first := rfl

@[simp]
theorem firstAfter_cons (first count : Nat) (counts : List Nat) :
    firstAfter first (count :: counts) = firstAfter (2 * (first + count)) counts := rfl

/-- The bits behind a word as one number, doubled like the reader does. -/
def doubled (word : Nat) (bits : List Bool) : Nat :=
  bits.foldl (fun word bit => 2 * (word + bit.toNat)) word

@[simp]
theorem doubled_nil (word : Nat) : doubled word [] = word := rfl

@[simp]
theorem doubled_cons (word : Nat) (bit : Bool) (bits : List Bool) :
    doubled word (bit :: bits) = doubled (2 * (word + bit.toNat)) bits := rfl

theorem doubled_append (word : Nat) (a b : List Bool) :
    doubled word (a ++ b) = doubled (doubled word a) b :=
  List.foldl_append

theorem doubled_highFirst (width n : Nat) :
    doubled 0 (highFirst width n) = 2 * (n % 2 ^ width) := by
  induction width generalizing n with
  | zero => simp [highFirst, lowFirst, Nat.mod_one]
  | succ width ih =>
    have split : n % 2 ^ (width + 1) = n % 2 + 2 * (n / 2 % 2 ^ width) := by
      rw [pow_succ, mul_comm, Nat.mod_mul]
    have bit : (n % 2 == 1).toNat = n % 2 := by
      rcases Nat.mod_two_eq_zero_or_one n with bit | bit <;> simp [bit]
    rw [highFirst, lowFirst, List.reverse_cons, ← highFirst, doubled_append, ih, doubled_cons,
      doubled_nil, bit, split, add_comm]

/-- Bits that go on from a smaller word stay smaller. -/
theorem doubled_lt {counts : List Nat} {bits : List Bool} (long : bits.length = counts.length + 1)
    {word first : Nat} (below : word + 2 ≤ first) :
    doubled word bits < 2 * firstAfter first counts := by
  induction counts generalizing bits word first with
  | nil =>
    obtain ⟨b, rfl⟩ := List.length_eq_one_iff.mp long
    have bit := b.toNat_lt
    rw [doubled_cons, doubled_nil, firstAfter_nil]
    omega
  | cons count counts ih =>
    obtain ⟨b, bits, rfl⟩ := List.exists_cons_of_length_eq_add_one long
    have bit := b.toNat_lt
    rw [doubled_cons, firstAfter_cons]
    exact ih (Nat.succ.inj long) (by omega)

theorem readFrom_word (symbols : Array Nat) {before after : List Nat} {count : Nat}
    {bits rest : List Bool} (long : bits.length = before.length + 1) {word first index v : Nat}
    (value : doubled word bits = 2 * v) (least : firstAfter first before ≤ v)
    (below : v < firstAfter first before + count) :
    readFrom symbols (before ++ count :: after) word first index (bits ++ rest) =
      symbols[index + before.sum + (v - firstAfter first before)]?.map (·, rest) := by
  induction before generalizing bits word first index with
  | nil =>
    obtain ⟨b, rfl⟩ := List.length_eq_one_iff.mp long
    rw [doubled_cons, doubled_nil] at value
    rw [firstAfter_nil] at least below ⊢
    have same : word + b.toNat = v := by omega
    simp [readFrom, same, below]
  | cons c before ih =>
    obtain ⟨b, bits, rfl⟩ := List.exists_cons_of_length_eq_add_one long
    rw [doubled_cons] at value
    rw [firstAfter_cons] at least below ⊢
    -- Whatever bits followed a word of this length, their number would be too small.
    have further : ¬word + b.toNat < first + c := by
      intro inside
      have small : doubled (2 * (word + b.toNat)) bits < 2 * firstAfter (2 * (first + c)) before :=
        doubled_lt (Nat.succ.inj long) (by omega)
      omega
    rw [List.cons_append, List.cons_append, readFrom, if_neg further,
      ih (Nat.succ.inj long) value least below, List.sum_cons, Nat.add_assoc index]

/-! ### Room for words -/

/-- The share of all words that words of these counts take. -/
def share : List Nat → ℚ
  | [] => 0
  | count :: counts => (count + share counts) / 2

theorem share_nonneg (counts : List Nat) : 0 ≤ share counts := by
  induction counts with
  | nil => exact le_refl 0
  | cons count counts ih =>
    rw [share]
    have : (0 : ℚ) ≤ count := Nat.cast_nonneg count
    linarith

/-- What is left for longer words. -/
theorem share_cons_le {count left : Nat} {counts : List Nat}
    (room : share (count :: counts) ≤ left) :
    count ≤ 2 * left ∧ share counts ≤ (2 * left - count : Nat) := by
  have rest := share_nonneg counts
  rw [share, div_le_iff₀ two_pos] at room
  have fits : count ≤ 2 * left := by
    have : (count : ℚ) ≤ left * 2 := by linarith
    exact_mod_cast this.trans_eq (mul_comm _ _)
  refine ⟨fits, ?_⟩
  rw [Nat.cast_sub fits]
  push_cast
  linarith

theorem leftOver?_eq_zero {counts : List Nat} {left : Nat} (whole : share counts = left) :
    counts.foldlM (fun left count => if count ≤ 2 * left then some (2 * left - count) else none)
      left = some 0 := by
  induction counts generalizing left with
  | nil =>
    obtain rfl : left = 0 := by
      rw [share] at whole
      exact_mod_cast whole.symm
    rfl
  | cons count counts ih =>
    obtain ⟨fits, _⟩ := share_cons_le whole.le
    have rest : share counts = (2 * left - count : Nat) := by
      rw [share] at whole
      rw [Nat.cast_sub fits]
      push_cast
      linarith
    rw [List.foldlM_cons, if_pos fits]
    exact ih rest

/-- Words have no more bits than their length says. -/
theorem firstAfter_add_le {before after : List Nat} {count first left : Nat}
    (room : share (before ++ count :: after) ≤ left) :
    firstAfter first before + count ≤ (first + 2 * left) * 2 ^ before.length := by
  induction before generalizing first left with
  | nil =>
    obtain ⟨fits, _⟩ := share_cons_le room
    simpa [firstAfter] using fits
  | cons c before ih =>
    obtain ⟨fits, rest⟩ := share_cons_le room
    have inner := @ih (2 * (first + c)) _ rest
    have same : (2 * (first + c) + 2 * (2 * left - c)) * 2 ^ before.length =
        (first + 2 * left) * 2 ^ (c :: before).length := by
      have : 2 * (first + c) + 2 * (2 * left - c) = (first + 2 * left) * 2 := by omega
      rw [this, List.length_cons, pow_succ]
      ring
    exact inner.trans_eq same

/-! ### The symbols of a length -/

variable {lengths : List Nat} {length s : Nat}

theorem mem_symbolsOf : s ∈ symbolsOf lengths length ↔ lengths[s]? = some length := by
  simp [symbolsOf, List.mem_zipIdx_iff_getElem?]

/-- The places of some elements of a list are distinct. -/
theorem nodup_places (l : List Nat) (p : Nat × Nat → Bool) :
    ((l.zipIdx.filter p).map (·.2)).Nodup := by
  have inside : ((l.zipIdx.filter p).map (·.2)).Sublist (l.zipIdx.map (·.2)) :=
    List.filter_sublist.map _
  refine inside.nodup ?_
  rw [List.zipIdx_map_snd]
  exact List.nodup_range'

theorem length_symbolsOf (lengths : List Nat) (length : Nat) :
    (symbolsOf lengths length).length = lengths.count length := by
  have counted := List.countP_map (p := (· == length)) (f := Prod.fst) (l := lengths.zipIdx)
  rw [List.zipIdx_map_fst] at counted
  rw [symbolsOf, List.length_map, ← List.countP_eq_length_filter, List.count, counted]
  rfl

/-- How many words there are of each length. -/
def countsOf (lengths : List Nat) : List Nat :=
  (classes lengths).map (·.length)

theorem length_countsOf (lengths : List Nat) : (countsOf lengths).length = maxLength := by
  simp [countsOf, classes]

theorem getElem_countsOf {lengths : List Nat} (bound : length < (countsOf lengths).length) :
    (countsOf lengths)[length] = (symbolsOf lengths (length + 1)).length := by
  simp [countsOf, classes]

/-- The counts of the lengths below, at and above one of them. -/
theorem countsOf_eq_append (lengths : List Nat) (short : length < maxLength) :
    countsOf lengths = (countsOf lengths).take length ++
      (symbolsOf lengths (length + 1)).length :: (countsOf lengths).drop (length + 1) := by
  have bound : length < (countsOf lengths).length := short.trans_eq (length_countsOf lengths).symm
  rw [← getElem_countsOf bound, List.cons_getElem_drop_succ, List.take_append_drop]

/-- The symbols in the order of their words: those of a length stand behind all shorter ones. -/
theorem getElem?_flatten_classes {rank : Nat} (short : length < maxLength)
    (place : (symbolsOf lengths (length + 1))[rank]? = some s) :
    (classes lengths).flatten[((countsOf lengths).take length).sum + rank]? = some s := by
  have bound : length < (classes lengths).length := by simpa [classes] using short
  have here : (classes lengths)[length] = symbolsOf lengths (length + 1) := by simp [classes]
  have whole := List.take_append_drop length (classes lengths)
  rw [← List.cons_getElem_drop_succ (h := bound), here] at whole
  have front : ((classes lengths).take length).flatten.length =
      ((countsOf lengths).take length).sum := by
    rw [List.length_flatten, countsOf, List.map_take]
  have inside : rank < (symbolsOf lengths (length + 1)).length :=
    (List.getElem?_eq_some_iff.mp place).1
  rw [← whole, List.flatten_append, List.flatten_cons, ← front,
    List.getElem?_append_right (by omega), Nat.add_sub_cancel_left,
    List.getElem?_append_left inside]
  exact place

end Code

/-! ### The words of the symbols -/

open Code

/-- Symbols of one length get consecutive words, and the others keep theirs. -/
theorem foldl_placeWord (length : Nat) {symbols : List Nat} (distinct : symbols.Nodup)
    (t : WordTable) :
    (symbols.foldl (placeWord length) t).1 = t.1 + symbols.length ∧
      (symbols.foldl (placeWord length) t).2.size = t.2.size ∧
      (∀ s ∉ symbols, (symbols.foldl (placeWord length) t).2[s]? = t.2[s]?) ∧
      ∀ rank s : Nat, symbols[rank]? = some s → s < t.2.size →
        (symbols.foldl (placeWord length) t).2[s]? = some (highFirst length (t.1 + rank)) := by
  induction symbols generalizing t with
  | nil => simp
  | cons first symbols ih =>
    obtain ⟨absent, distinct⟩ := List.nodup_cons.mp distinct
    obtain ⟨next, size, others, own⟩ := ih distinct (placeWord length t first)
    rw [List.foldl_cons]
    refine ⟨?_, ?_, ?_, ?_⟩
    · rw [next, placeWord, List.length_cons]
      omega
    · rw [size, placeWord, Array.size_setIfInBounds]
    · intro s outside
      obtain ⟨apart, later⟩ : s ≠ first ∧ s ∉ symbols := by simpa using outside
      rw [others s later, placeWord, Array.getElem?_setIfInBounds_ne apart.symm]
    · intro rank s place bound
      cases rank with
      | zero =>
        -- This symbol has its word already, and it is none of those that follow.
        obtain rfl : first = s := by simpa using place
        rw [others first absent, placeWord, Array.getElem?_setIfInBounds_self_of_lt bound]
        rfl
      | succ rank =>
        have word := own rank s (by simpa using place) (by simpa [placeWord] using bound)
        rw [word, placeWord]
        congr 2
        omega

/-- The table of words once those of the lengths up to `n` are placed. -/
def wordsUpTo (lengths : List Nat) (n : Nat) : WordTable :=
  (List.range n).foldl (fun t i => placeWords lengths t (i + 1))
    (0, (List.replicate lengths.length []).toArray)

variable {lengths : List Nat}

theorem wordsUpTo_succ (lengths : List Nat) (n : Nat) :
    wordsUpTo lengths (n + 1) = placeWords lengths (wordsUpTo lengths n) (n + 1) := by
  rw [wordsUpTo, List.range_succ, List.foldl_append]
  rfl

/-- What has been placed after each length, by induction on the lengths. -/
theorem wordsUpTo_spec {n : Nat} (short : n ≤ maxLength) :
    (wordsUpTo lengths n).1 = firstAfter 0 ((countsOf lengths).take n) ∧
      (wordsUpTo lengths n).2.size = lengths.length ∧
      ∀ length rank s : Nat, length < n → (symbolsOf lengths (length + 1))[rank]? = some s →
        (wordsUpTo lengths n).2[s]? = some (highFirst (length + 1)
          (firstAfter 0 ((countsOf lengths).take length) + rank)) := by
  induction n with
  | zero => simp [wordsUpTo]
  | succ n ih =>
    obtain ⟨next, size, placed⟩ := ih (by omega)
    have distinct : (symbolsOf lengths (n + 1)).Nodup := nodup_places lengths _
    obtain ⟨last, kept, others, own⟩ := foldl_placeWord (n + 1) distinct (wordsUpTo lengths n)
    have bound : n < (countsOf lengths).length := by
      rw [length_countsOf]
      omega
    rw [wordsUpTo_succ, placeWords]
    refine ⟨?_, kept.trans size, ?_⟩
    · rw [last, next, List.take_add_one, List.getElem?_eq_getElem bound, getElem_countsOf bound,
        firstAfter, firstAfter, List.foldl_append]
      rfl
    · intro length rank s earlier place
      have member := mem_symbolsOf.mp (List.mem_of_getElem? place)
      rcases Nat.lt_succ_iff_lt_or_eq.mp earlier with earlier | rfl
      · -- The symbol has a shorter word, so it is none of those that were placed last.
        rw [others s ?_]
        · exact placed length rank s earlier place
        · intro again
          have same := Option.some.inj (member.symm.trans (mem_symbolsOf.mp again))
          omega
      · have inside : s < (wordsUpTo lengths length).2.size :=
          size ▸ (List.getElem?_eq_some_iff.mp member).1
        rw [own rank s place inside, next]

/-- The words of a length go on from its first number in the order of their symbols. -/
theorem getD_words {length rank s : Nat} (short : length < maxLength)
    (place : (symbolsOf lengths (length + 1))[rank]? = some s) :
    (words lengths).getD s [] = highFirst (length + 1)
      (firstAfter 0 ((countsOf lengths).take length) + rank) := by
  obtain ⟨_, _, placed⟩ := @wordsUpTo_spec lengths maxLength le_rfl
  have found := placed length rank s short place
  rw [wordsUpTo, ← words] at found
  rw [Array.getD_eq_getD_getElem?, found, Option.getD_some]

/-! ### Complete codes -/

/-- The share of all words that a word of a length takes; no word takes nothing. -/
def weight (length : Nat) : ℚ :=
  if length = 0 then 0 else (1 / 2) ^ length

/-- Words of these lengths leave none over. -/
structure Complete (lengths : List Nat) : Prop where
  bounded : ∀ length ∈ lengths, length ≤ maxLength
  whole : (lengths.map weight).sum = 1

theorem share_map_range (n : Nat) (count : Nat → Nat) :
    share ((List.range n).map count) = ∑ i ∈ Finset.range n, count i * (1 / 2 : ℚ) ^ (i + 1) := by
  induction n generalizing count with
  | zero => rfl
  | succ n ih =>
    have half : ∑ i ∈ Finset.range n, count (i + 1) * (1 / 2 : ℚ) ^ (i + 1 + 1) =
        (∑ i ∈ Finset.range n, count (i + 1) * (1 / 2 : ℚ) ^ (i + 1)) * (1 / 2) := by
      rw [Finset.sum_mul]
      exact Finset.sum_congr rfl fun i _ => by rw [pow_succ _ (i + 1), mul_assoc]
    rw [List.range_succ_eq_map, List.map_cons, List.map_map, share, ih, Finset.sum_range_succ',
      half, pow_one, Function.comp_def]
    ring

/-- The shares of the symbols add up to those of the lengths. -/
theorem share_countsOf (bounded : ∀ length ∈ lengths, length ≤ maxLength) :
    share (countsOf lengths) = (lengths.map weight).sum := by
  have counts : countsOf lengths = (List.range maxLength).map fun i => lengths.count (i + 1) := by
    simp [countsOf, classes, length_symbolsOf, Function.comp_def]
  rw [counts, share_map_range]
  clear counts
  induction lengths with
  | nil => simp
  | cons length lengths ih =>
    obtain ⟨short, bounded⟩ := List.forall_mem_cons.mp bounded
    have own : ∑ i ∈ Finset.range maxLength,
        (if length = i + 1 then (1 / 2 : ℚ) ^ (i + 1) else 0) = weight length := by
      cases length with
      | zero => simp [weight]
      | succ length => simp [weight, Nat.lt_iff_add_one_le.mpr short]
    -- One more symbol adds one to the count of its own length only.
    have split (i : Nat) : ((length :: lengths).count (i + 1) : ℚ) * (1 / 2) ^ (i + 1) =
        lengths.count (i + 1) * (1 / 2) ^ (i + 1) +
          if length = i + 1 then (1 / 2 : ℚ) ^ (i + 1) else 0 := by
      rw [List.count_cons]
      by_cases same : length = i + 1 <;> simp [same, add_mul]
    rw [Finset.sum_congr rfl fun i _ => split i, Finset.sum_add_distrib, ih bounded, own,
      List.map_cons, List.sum_cons, add_comm]

/-- A word is read as its symbol, whatever follows it. -/
def Reads (code : Code) (table : Array (List Bool)) (s : Nat) : Prop :=
  ∀ rest, code.read? (table.getD s [] ++ rest) = some (s, rest)

theorem Reads.nonempty {code : Code} {table : Array (List Bool)} {s : Nat}
    (reads : Reads code table s) : table.getD s [] ≠ [] := by
  intro empty
  have read := reads []
  rw [empty, read?] at read
  cases counts : code.counts <;> simp [counts, readFrom] at read

/-- The words of a length are numbers of as many bits. -/
theorem firstAfter_countsOf_le (complete : share (countsOf lengths) = 1) {length : Nat}
    (short : length < maxLength) :
    firstAfter 0 ((countsOf lengths).take length) + (symbolsOf lengths (length + 1)).length ≤
      2 ^ (length + 1) := by
  have size : ((countsOf lengths).take length).length = length := by
    simp [length_countsOf, short.le]
  have room : share (countsOf lengths) ≤ (1 : Nat) := by simp [complete]
  rw [countsOf_eq_append lengths short] at room
  have bound := @firstAfter_add_le _ _ _ 0 1 room
  rwa [size, Nat.zero_add, mul_one, mul_comm, ← pow_succ] at bound

theorem exists_reads_of_complete (complete : Complete lengths) :
    ∃ code, ofLengths? lengths = some code ∧
      ∀ s length : Nat, lengths[s]? = some length → length ≠ 0 → Reads code (words lengths) s := by
  have shares := (share_countsOf complete.bounded).trans complete.whole
  have left : leftOver? (countsOf lengths) = some 0 := leftOver?_eq_zero (by simpa using shares)
  refine ⟨⟨countsOf lengths, (classes lengths).flatten.toArray⟩, ?_, ?_⟩
  · rw [ofLengths?, ← countsOf, left]
    rfl
  · intro s length has positive rest
    obtain ⟨length, rfl⟩ := Nat.exists_eq_add_one_of_ne_zero positive
    have short : length < maxLength := complete.bounded _ (List.mem_of_getElem? has)
    obtain ⟨rank, place⟩ := List.getElem?_of_mem (mem_symbolsOf.mpr has)
    have inside := (List.getElem?_eq_some_iff.mp place).1
    have symbol := getElem?_flatten_classes short place
    have word := getD_words short place
    have room := firstAfter_countsOf_le shares short
    -- The counts are those of the shorter words, of these, and of the longer ones.
    obtain ⟨before, after, cut, shorter⟩ : ∃ before after, countsOf lengths =
        before ++ (symbolsOf lengths (length + 1)).length :: after ∧
          (countsOf lengths).take length = before :=
      ⟨_, _, countsOf_eq_append lengths short, rfl⟩
    rw [shorter] at symbol word room
    have value := doubled_highFirst (length + 1) (firstAfter 0 before + rank)
    rw [Nat.mod_eq_of_lt (by omega)] at value
    have long : (highFirst (length + 1) (firstAfter 0 before + rank)).length =
        before.length + 1 := by
      rw [highFirst, List.length_reverse, length_lowFirst, ← shorter]
      simp [length_countsOf, short.le]
    rw [word, read?, cut, readFrom_word _ long value (by omega) (by omega), Nat.zero_add,
      Nat.add_sub_cancel_left, List.getElem?_toArray, symbol]
    rfl

end SqlToMongo.Gzip
