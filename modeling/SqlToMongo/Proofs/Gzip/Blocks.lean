import Mathlib.Data.List.TakeWhile
import SqlToMongo.Proofs.Gzip.Lengths
import SqlToMongo.Proofs.Gzip.Pieces

/-!
# Packing and unpacking

The codes of a block are made for its pieces: every symbol that occurs has a word. So the codes that
are sent ahead are complete and read back, and then so is each piece. Every piece has a bit at
least, so the reader has steps enough for all of them.

## Main result

`inflate?_deflate`: packed data is unpacked, whatever follows it.
-/

namespace SqlToMongo.Gzip

/-! ### Frequencies -/

/-- Counting keeps what was counted, by induction on the occurrences. -/
theorem foldl_countSymbol (symbols : List Nat) (table : Array Nat) :
    (symbols.foldl countSymbol table).size = table.size ∧
      ∀ s < table.size, table.getD s 0 ≤ (symbols.foldl countSymbol table).getD s 0 ∧
        (s ∈ symbols → 0 < (symbols.foldl countSymbol table).getD s 0) := by
  induction symbols generalizing table with
  | nil => simp
  | cons first symbols ih =>
    obtain ⟨size, counted⟩ := ih (countSymbol table first)
    have kept : (countSymbol table first).size = table.size := by simp [countSymbol]
    refine ⟨size.trans kept, fun s bound => ?_⟩
    obtain ⟨more, found⟩ := counted s (kept ▸ bound)
    have step : (countSymbol table first).getD s 0 =
        table.getD s 0 + if first = s then 1 else 0 := by
      by_cases same : first = s
      · subst same
        simp [countSymbol, bound]
      · simp [countSymbol, same]
    rw [List.foldl_cons]
    refine ⟨by omega, fun member => ?_⟩
    rcases List.mem_cons.mp member with rfl | member
    · rw [if_pos rfl] at step
      omega
    · exact found member

theorem length_frequencies (size : Nat) (least : Nat → Nat) (symbols : List Nat) :
    (frequencies size least symbols).length = size := by
  rw [frequencies, Array.length_toList, (foldl_countSymbol symbols _).1]
  simp

/-- What occurs, and what counts in any case, has a weight. -/
theorem mem_weighted_frequencies {size s : Nat} {least : Nat → Nat} {symbols : List Nat}
    (bound : s < size) (occurs : least s ≠ 0 ∨ s ∈ symbols) :
    s ∈ Weights.weighted (frequencies size least symbols) := by
  obtain ⟨_, counted⟩ := foldl_countSymbol symbols ((List.range size).map least).toArray
  obtain ⟨more, found⟩ := counted s (by simpa using bound)
  have start : ((List.range size).map least).toArray.getD s 0 = least s := by simp [bound]
  have inside : s < (symbols.foldl countSymbol ((List.range size).map least).toArray).size := by
    rw [(foldl_countSymbol symbols _).1]
    simpa using bound
  refine Weights.mem_weighted.mpr
    ⟨(symbols.foldl countSymbol ((List.range size).map least).toArray).getD s 0, ?_, ?_⟩
  · rcases occurs with some | member
    · omega
    · exact (found member).ne'
  · rw [frequencies, Array.getElem?_toList, Array.getD_eq_getD_getElem?,
      Array.getElem?_eq_getElem inside]
    rfl

theorem two_le_length {α : Type} {l : List α} {a b : α} (first : a ∈ l) (second : b ∈ l)
    (apart : a ≠ b) : 2 ≤ l.length := by
  match l with
  | [] => simp at first
  | [c] =>
    have same := (List.mem_singleton.mp first).trans (List.mem_singleton.mp second).symm
    exact absurd same apart
  | _ :: _ :: _ => simp

/-! ### The codes of a block -/

/-- The symbols of pieces that expand are in the alphabets. -/
theorem Expands.symbols_lt {data result : Array UInt8} {pieces : List Piece}
    (expands : Expands data pieces result) {p : Piece} (member : p ∈ pieces) :
    p.symbols.1 < 286 ∧ ∀ d ∈ p.symbols.2, d < 30 := by
  induction expands with
  | nil => simp at member
  | @byte data result b rest _ ih =>
    rcases List.mem_cons.mp member with rfl | member
    · have bound := b.toNat_lt
      refine ⟨?_, by simp [Piece.symbols]⟩
      rw [Piece.symbols]
      omega
    · exact ih member
  | @copy data result length distance rest long short far near _ _ ih =>
    rcases List.mem_cons.mp member with rfl | member
    · have first := (inRange?_rangeOf covers_lengthRanges long short []).1
      have second := (inRange?_rangeOf covers_distanceRanges far near []).1
      have lengths : lengthRanges.length = 29 := rfl
      have distances : distanceRanges.length = 30 := rfl
      refine ⟨?_, ?_⟩
      · rw [Piece.symbols, endSymbol]
        omega
      · intro d member
        have same : (rangeOf distanceRanges distance).1 = d := Option.some.inj member
        omega
    · exact ih member

open Weights

/-- Two symbols that count in any case make a code, whatever else occurs. -/
theorem fit_frequencies {size a b : Nat} {least : Nat → Nat} (bounded : size < 2 ^ maxLength)
    (first : a < size ∧ least a ≠ 0) (second : b < size ∧ least b ≠ 0) (apart : a ≠ b)
    (steps : Nat) (symbols : List Nat) :
    Fit (frequencies size least symbols)
      (boundedLengths steps (frequencies size least symbols)) := by
  have one : a ∈ weighted (frequencies size least symbols) :=
    mem_weighted_frequencies first.1 (.inl first.2)
  have other : b ∈ weighted (frequencies size least symbols) :=
    mem_weighted_frequencies second.1 (.inl second.2)
  apply fit_boundedLengths (two_le_length one other apart)
  rwa [length_frequencies]

theorem fit_literalLengths (pieces : List Piece) :
    Fit (frequencies 286 (fun s => if s = 0 ∨ s = endSymbol then 1 else 0)
      (pieces.map (·.symbols.1))) (literalLengths pieces) :=
  fit_frequencies (a := 0) (b := endSymbol) (by decide) (by decide) (by decide) (by decide) 64 _

theorem fit_distanceLengths (pieces : List Piece) :
    Fit (frequencies 30 (fun s => if s < 2 then 1 else 0) (pieces.filterMap (·.symbols.2)))
      (distanceLengths pieces) :=
  fit_frequencies (a := 0) (b := 1) (by decide) (by decide) (by decide) (by decide) 64 _

/-- The code reads the words of these symbols. -/
theorem Weights.Fit.exists_reads {weights lengths : List Nat} (fit : Fit weights lengths) :
    ∃ code, Code.ofLengths? lengths = some code ∧
      ∀ s ∈ weighted weights, Reads code (words lengths) s := by
  obtain ⟨code, made, reads⟩ := exists_reads_of_complete fit.complete
  refine ⟨code, made, fun s member => ?_⟩
  obtain ⟨length, has, positive⟩ := fit.positive s member
  exact reads s length has positive

/-! ### Lengths that are sent ahead -/

theorem complete_lengthCode : Complete lengthCode where
  bounded := by decide
  whole := by norm_num [lengthCode, weight, List.replicate]

theorem readShortLengths_lowFirst {lengths : List Nat} (short : ∀ length ∈ lengths, length < 2 ^ 3)
    (rest : List Bool) :
    readShortLengths lengths.length (lengths.flatMap (lowFirst 3) ++ rest) =
      some (lengths, rest) := by
  induction lengths with
  | nil => rfl
  | cons length lengths ih =>
    obtain ⟨bound, short⟩ := List.forall_mem_cons.mp short
    rw [List.flatMap_cons, List.append_assoc, List.length_cons, readShortLengths,
      take?_lowFirst bound]
    simp [ih short]

section

variable {code : Code} {count fuel : Nat} {read : List Nat} {bits rest : List Bool}

theorem readLengths_direct {s : Nat} (more : read.length < count)
    (found : code.read? bits = some (s, rest)) (direct : s < 16) :
    readLengths code count (fuel + 1) read bits = readLengths code count fuel (s :: read) rest := by
  have unfinished : ¬count < read.length := by omega
  have missing : read.length ≠ count := by omega
  simp [readLengths, unfinished, missing, found, direct]

theorem readLengths_zeros {n : Nat} (more : read.length < count)
    (found : code.read? bits = some (18, lowFirst 7 n ++ rest)) (fits : n < 2 ^ 7) :
    readLengths code count (fuel + 1) read bits =
      readLengths code count fuel (List.replicate (11 + n) 0 ++ read) rest := by
  have unfinished : ¬count < read.length := by omega
  have missing : read.length ≠ count := by omega
  simp [readLengths, unfinished, missing, found, take?_lowFirst fits]

/-- What the writer sends as a run is zeros at the front of the lengths. -/
theorem zeros_of_takeWhile {lengths zeros : List Nat}
    (found : (lengths.take 138).takeWhile (· == 0) = zeros) :
    zeros.length ≤ 138 ∧ zeros = List.replicate zeros.length 0 ∧
      zeros ++ lengths.drop zeros.length = lengths := by
  have inside : zeros <+: lengths.take 138 := found ▸ List.takeWhile_prefix _
  refine ⟨?_, ?_, ?_⟩
  · exact inside.length_le.trans (List.length_take_le 138 lengths)
  · refine List.eq_replicate_of_mem fun z member => ?_
    rw [← found] at member
    simpa using List.mem_takeWhile_imp member
  · obtain ⟨back, rfl⟩ := inside.trans (List.take_prefix 138 lengths)
    rw [List.drop_left]

/-- Lengths are read back one by one or in runs of zeros, by induction on the steps of the
writer. -/
theorem readLengths_writeLengths {table : Array (List Bool)}
    (reads : ∀ s, s ≤ maxLength ∨ s = 18 → Reads code table s) {steps : Nat} {lengths : List Nat}
    (bounded : ∀ length ∈ lengths, length ≤ maxLength) (enough : lengths.length ≤ steps)
    (more : lengths.length < fuel) (whole : read.length + lengths.length = count) :
    readLengths code count fuel read (writeLengths table steps lengths ++ rest) =
      some (read.reverse ++ lengths, rest) := by
  have done {fuel : Nat} {read : List Nat} : readLengths code read.length (fuel + 1) read rest =
      some (read.reverse, rest) := by simp [readLengths]
  obtain ⟨fuel, rfl⟩ := Nat.exists_eq_add_one_of_ne_zero (Nat.ne_of_gt (Nat.zero_lt_of_lt more))
  induction steps generalizing lengths fuel read with
  | zero =>
    obtain rfl : lengths = [] := List.eq_nil_of_length_eq_zero (Nat.le_zero.mp enough)
    obtain rfl : read.length = count := whole
    rw [List.append_nil]
    exact done
  | succ steps ih =>
    cases lengths with
    | nil =>
      obtain rfl : read.length = count := whole
      rw [List.append_nil]
      exact done
    | cons length lengths =>
      rw [List.length_cons] at enough more whole
      rw [writeLengths]
      split
      next run =>
        generalize found : ((length :: lengths).take 138).takeWhile (· == 0) = zeros at run ⊢
        obtain ⟨few, all, split⟩ := zeros_of_takeWhile found
        generalize (length :: lengths).drop zeros.length = back at split ⊢
        have size := congrArg List.length split
        rw [List.length_append, List.length_cons] at size
        have short : ∀ length ∈ back, length ≤ maxLength := fun length member =>
          bounded length (split ▸ List.mem_append_right zeros member)
        have fits : zeros.length - 11 < 2 ^ 7 := by omega
        have same : zeros.reverse = zeros := by rw [all, List.reverse_replicate]
        obtain ⟨fuel, rfl⟩ : ∃ f, fuel = f + 1 := ⟨fuel - 1, by omega⟩
        -- The run has as many zeros as the seven bits say, and eleven more.
        rw [List.append_assoc, List.append_assoc,
          readLengths_zeros (by omega) (reads 18 (.inr rfl) _) fits, Nat.add_sub_cancel' run, ← all,
          ih short (by omega) (by rw [List.length_append]; omega) fuel (by omega), ← split]
        simp [same]
      next =>
        obtain ⟨short, bounded⟩ := List.forall_mem_cons.mp bounded
        obtain ⟨fuel, rfl⟩ : ∃ f, fuel = f + 1 := ⟨fuel - 1, by omega⟩
        have symbol := reads length (.inl short) (writeLengths table steps lengths ++ rest)
        rw [← List.append_assoc] at symbol
        rw [readLengths_direct (by omega) symbol (Nat.lt_succ_of_le short),
          ih bounded (by omega) (by rw [List.length_cons]; omega) fuel (by omega)]
        simp

end

/-! ### Pieces -/

section

variable {literals distances : Code} {data : Array UInt8} {steps : Nat} {bits rest : List Bool}

theorem inflateCoded_byte {b : UInt8} (found : literals.read? bits = some (b.toNat, rest)) :
    inflateCoded literals distances (steps + 1) data bits =
      inflateCoded literals distances steps (data.push b) rest := by
  have bound : b.toNat < endSymbol := b.toNat_lt
  simp [inflateCoded, found, bound]

theorem inflateCoded_end (found : literals.read? bits = some (endSymbol, rest)) :
    inflateCoded literals distances (steps + 1) data bits = some (data, rest) := by
  simp [inflateCoded, found]

theorem inflateCoded_copy {i place length distance : Nat} {behind farther extra : List Bool}
    (symbol : literals.read? bits = some (endSymbol + 1 + i, behind))
    (size : inRange? lengthRanges i behind = some (length, farther))
    (found : distances.read? farther = some (place, extra))
    (reach : inRange? distanceRanges place extra = some (distance, rest))
    (back : distance ≤ data.size) :
    inflateCoded literals distances (steps + 1) data bits =
      inflateCoded literals distances steps (appendCopy data distance length) rest := by
  have above : ¬endSymbol + 1 + i < endSymbol := by omega
  have other : endSymbol + 1 + i ≠ endSymbol := by omega
  have known : ¬data.size < distance := by omega
  simp [inflateCoded, symbol, above, other, size, found, reach, known]

end

theorem inflateCoded_writePieces {literals distances : Code} {words words' : Array (List Bool)}
    {data result : Array UInt8} {pieces : List Piece} (expands : Expands data pieces result)
    (reads : ∀ p ∈ pieces, Reads literals words p.symbols.1 ∧
      ∀ d ∈ p.symbols.2, Reads distances words' d)
    (ends : Reads literals words endSymbol) {steps : Nat} (enough : pieces.length < steps)
    (rest : List Bool) :
    inflateCoded literals distances steps data
      (pieces.flatMap (writePiece words words') ++ (words.getD endSymbol [] ++ rest)) =
        some (result, rest) := by
  induction expands generalizing steps with
  | nil =>
    obtain ⟨steps, rfl⟩ := Nat.exists_eq_add_of_lt enough
    exact inflateCoded_end (ends rest)
  | @byte data result b pieces _ ih =>
    obtain ⟨⟨literal, _⟩, reads⟩ := List.forall_mem_cons.mp reads
    have literal : Reads literals words b.toNat := literal
    obtain ⟨steps, rfl⟩ := Nat.exists_eq_add_of_lt enough
    rw [List.flatMap_cons, writePiece, List.append_assoc, inflateCoded_byte (literal _)]
    exact ih reads (by simp; omega)
  | @copy data result length distance pieces long short far near back _ ih =>
    obtain ⟨⟨literal, farther⟩, reads⟩ := List.forall_mem_cons.mp reads
    obtain ⟨steps, rfl⟩ := Nat.exists_eq_add_of_lt enough
    have size := fun more => (inRange?_rangeOf covers_lengthRanges long short more).2
    have reach := fun more => (inRange?_rangeOf covers_distanceRanges far near more).2
    have literal : Reads literals words (endSymbol + 1 + (rangeOf lengthRanges length).1) := literal
    rw [List.flatMap_cons, writePiece]
    simp only [List.append_assoc]
    rw [inflateCoded_copy (literal _) (size _) (farther _ rfl _) (reach _) back]
    exact ih reads (by simp; omega)

/-! ### Blocks -/

theorem exists_lengthCode : ∃ code, Code.ofLengths? lengthCode = some code ∧
    ∀ s, s ≤ maxLength ∨ s = 18 → Reads code (words lengthCode) s := by
  obtain ⟨code, made, reads⟩ := exists_reads_of_complete complete_lengthCode
  have used : ∀ s < 19, s ≤ maxLength ∨ s = 18 → lengthCode[s]?.getD 0 ≠ 0 := by decide
  refine ⟨code, made, fun s symbol => ?_⟩
  have bound : s < 19 := by
    rw [maxLength] at symbol
    omega
  have has := List.getElem?_eq_getElem (l := lengthCode) (i := s) bound
  have word := used s bound symbol
  rw [has, Option.getD_some] at word
  exact reads s _ has word

theorem readCodes_writeBlock {literals distances : Code} {lengths lengths' : List Nat}
    (size : lengths.length = 286) (size' : lengths'.length = 30)
    (bounded : ∀ length ∈ lengths ++ lengths', length ≤ maxLength)
    (made : Code.ofLengths? lengths = some literals)
    (made' : Code.ofLengths? lengths' = some distances) (rest : List Bool) :
    readCodes (lowFirst 5 (286 - 257) ++ (lowFirst 5 (30 - 1) ++ (lowFirst 4 (19 - 4) ++
      (lengthOrder.flatMap (fun i => lowFirst 3 (lengthCode.getD i 0)) ++
        (writeLengths (words lengthCode) (lengths ++ lengths').length (lengths ++ lengths') ++
          rest))))) = some ((literals, distances), rest) := by
  obtain ⟨code, known, reads⟩ := exists_lengthCode
  let sent := lengthOrder.map fun i => lengthCode.getD i 0
  have short : ∀ length ∈ sent, length < 2 ^ 3 := by decide
  have placed : (List.range 19).map (fun i => ((lengthOrder.zip sent).lookup i).getD 0) =
      lengthCode := by decide
  have total : (lengths ++ lengths').length = 29 + 257 + 29 + 1 := by simp [size, size']
  have first (more : List Bool) : take? 5 (lowFirst 5 (286 - 257) ++ more) = some (29, more) :=
    take?_lowFirst (by decide) more
  have second (more : List Bool) : take? 5 (lowFirst 5 (30 - 1) ++ more) = some (29, more) :=
    take?_lowFirst (by decide) more
  have third (more : List Bool) : take? 4 (lowFirst 4 (19 - 4) ++ more) = some (15, more) :=
    take?_lowFirst (by decide) more
  have fourth (more : List Bool) : readShortLengths (15 + 4)
      (lengthOrder.flatMap (fun i => lowFirst 3 (lengthCode.getD i 0)) ++ more) =
        some (sent, more) := by
    have order := readShortLengths_lowFirst short more
    rwa [List.flatMap_map] at order
  have both := @readLengths_writeLengths code _ (29 + 257 + 29 + 1 + 1) [] rest _ reads _ _ bounded
    le_rfl (by omega) ((Nat.zero_add _).trans total)
  have front : (lengths ++ lengths').take (29 + 257) = lengths := List.take_left' size
  have back : (lengths ++ lengths').drop (29 + 257) = lengths' := List.drop_left' size
  rw [List.reverse_nil, List.nil_append] at both
  -- The steps of the reader, one after another.
  simp only [readCodes, Option.bind_eq_bind]
  rw [first, Option.bind_some]
  dsimp only
  rw [second, Option.bind_some]
  dsimp only
  rw [third, Option.bind_some]
  dsimp only
  rw [fourth, Option.bind_some]
  dsimp only
  rw [placed, known, Option.bind_some, both, Option.bind_some]
  dsimp only
  rw [front, back, made, made']
  rfl

theorem length_le_length_writePieces {words words' : Array (List Bool)} {pieces : List Piece}
    (nonempty : ∀ p ∈ pieces, words.getD p.symbols.1 [] ≠ []) :
    pieces.length ≤ (pieces.flatMap (writePiece words words')).length := by
  induction pieces with
  | nil => exact le_rfl
  | cons p pieces ih =>
    obtain ⟨first, nonempty⟩ := List.forall_mem_cons.mp nonempty
    have some := List.length_pos_of_ne_nil first
    have inner := ih nonempty
    have word : (words.getD p.symbols.1 []).length ≤ (writePiece words words' p).length := by
      cases p with
      | byte b => exact le_rfl
      | copy length distance =>
        simp only [writePiece, Piece.symbols, List.length_append]
        omega
    rw [List.flatMap_cons, List.length_append, List.length_cons]
    omega

theorem readBlock_coded {literals distances : Code} {data result : Array UInt8}
    {codes coded rest : List Bool} (found : readCodes codes = some ((literals, distances), coded))
    (inflated : inflateCoded literals distances coded.length data coded = some (result, rest))
    (total : Nat) :
    readBlock total data (lowFirst 1 1 ++ (lowFirst 2 2 ++ codes)) = some (true, result, rest) := by
  have last (more : List Bool) : take? 1 (lowFirst 1 1 ++ more) = some (1, more) :=
    take?_lowFirst (by decide) more
  have kind (more : List Bool) : take? 2 (lowFirst 2 2 ++ more) = some (2, more) :=
    take?_lowFirst (by decide) more
  simp [readBlock, last, kind, found, inflated]

theorem readBlock_writeBlock {pieces : List Piece} {result : Array UInt8}
    (expands : Expands #[] pieces result) (total : Nat) (rest : List Bool) :
    readBlock total #[] (writeBlock pieces ++ rest) = some (true, result, rest) := by
  have fit := fit_literalLengths pieces
  have fit' := fit_distanceLengths pieces
  obtain ⟨literals, made, reads⟩ := fit.exists_reads
  obtain ⟨distances, made', reads'⟩ := fit'.exists_reads
  have size : (literalLengths pieces).length = 286 := fit.size.trans (length_frequencies _ _ _)
  have size' : (distanceLengths pieces).length = 30 := fit'.size.trans (length_frequencies _ _ _)
  have bounded : ∀ length ∈ literalLengths pieces ++ distanceLengths pieces, length ≤ maxLength :=
    List.forall_mem_append.mpr ⟨fit.complete.bounded, fit'.complete.bounded⟩
  have used : ∀ p ∈ pieces, Reads literals (words (literalLengths pieces)) p.symbols.1 ∧
      ∀ d ∈ p.symbols.2, Reads distances (words (distanceLengths pieces)) d := by
    intro p member
    obtain ⟨bound, bound'⟩ := expands.symbols_lt member
    refine ⟨reads _ (mem_weighted_frequencies bound (.inr ?_)), fun d found => ?_⟩
    · exact List.mem_map_of_mem member
    · exact reads' d (mem_weighted_frequencies (bound' d found)
        (.inr (List.mem_filterMap.mpr ⟨p, member, found⟩)))
  have ends : Reads literals (words (literalLengths pieces)) endSymbol :=
    reads _ (mem_weighted_frequencies (by decide) (.inl (by decide)))
  -- No word is empty, so the bits that follow are steps enough for all pieces and the end.
  have enough := @length_le_length_writePieces _ (words (distanceLengths pieces)) pieces
    fun p member => (used p member).1.nonempty
  have some := List.length_pos_of_ne_nil ends.nonempty
  simp only [writeBlock, List.append_assoc]
  apply readBlock_coded (readCodes_writeBlock size size' bounded made made' _)
  apply inflateCoded_writePieces expands used ends
  simp only [List.length_append]
  omega

theorem inflate?_deflate (data tail : List UInt8) :
    inflate? (deflate data ++ tail) = some (data, tail) := by
  obtain ⟨fill, small, packed⟩ := bitsOf_bytesOf (writeBlock (pieces data))
  have bits : bitsOf (deflate data ++ tail) =
      writeBlock (pieces data) ++ (List.replicate fill false ++ bitsOf tail) := by
    rw [bitsOf_append, deflate, packed, List.append_assoc]
  have block := readBlock_writeBlock (expands_pieces data) (bitsOf (deflate data ++ tail)).length
    (List.replicate fill false ++ bitsOf tail)
  rw [← bits] at block
  obtain ⟨steps, more⟩ : ∃ n, (bitsOf (deflate data ++ tail)).length = n + 1 := by
    refine Nat.exists_eq_add_one_of_ne_zero fun empty => ?_
    rw [List.length_eq_zero_iff.mp empty] at block
    simp [readBlock, take?] at block
  have blocks : readBlocks (bitsOf (deflate data ++ tail)).length
      (bitsOf (deflate data ++ tail)).length #[] (bitsOf (deflate data ++ tail)) =
        some (data.toArray, List.replicate fill false ++ bitsOf tail) := by
    rw [more, readBlocks, ← more, block]
    rfl
  -- The zeros that fill the last byte are fewer than a byte.
  have left : (List.replicate fill false ++ bitsOf tail).length / 8 = tail.length := by
    rw [List.length_append, List.length_replicate, length_bitsOf]
    omega
  simp only [inflate?, blocks, Option.bind_eq_bind, Option.bind_some, left]
  rw [List.length_append, Nat.add_sub_cancel, List.drop_left]

end SqlToMongo.Gzip
