import Std.Data.HashMap
import SqlToMongo.Gzip.Huffman
import SqlToMongo.Gzip.Symbol

/-!
# Packing

The data is cut into bytes and copies: where the next three bytes occurred before, as much as agrees
is a copy. The pieces are then written in one block with codes made for them.
-/

namespace SqlToMongo.Gzip

/-- The three bytes at a place as a number. -/
def tripleAt (data : Array UInt8) (i : Nat) : Nat :=
  (data.getD i 0).toNat + 256 * (data.getD (i + 1) 0).toNat + 65536 * (data.getD (i + 2) 0).toNat

/-- How many bytes agree at two places, at most `limit`. -/
def agreeing (data : Array UInt8) (i j : Nat) : Nat → Nat
  | 0 => 0
  | limit + 1 =>
    if j < data.size ∧ data.getD i 0 = data.getD j 0 then
      agreeing data (i + 1) (j + 1) limit + 1
    else 0

/-- The earlier bytes to copy at a place: their distance and number. -/
def copyAt? (data : Array UInt8) (seen : Std.HashMap Nat Nat) (i : Nat) : Option (Nat × Nat) := do
  if data.size ≤ i + 2 then failure
  let earlier ← seen[tripleAt data i]?
  let length := agreeing data earlier i 258
  if length < 3 ∨ 32768 < i - earlier then failure
  return (i - earlier, length)

/-- Cuts the data from a place on. `seen` holds the last place of each triple that began a piece. -/
def cut (data : Array UInt8) : Nat → Nat → Std.HashMap Nat Nat → List Piece
  | 0, _, _ => []
  | steps + 1, i, seen =>
    if h : i < data.size then
      let (piece, length) :=
        match copyAt? data seen i with
        | some (distance, length) => (Piece.copy length distance, length)
        | none => (Piece.byte data[i], 1)
      piece :: cut data steps (i + length) (seen.insert (tripleAt data i) i)
    else []

/-- The pieces of the data. -/
def pieces (data : List UInt8) : List Piece :=
  cut data.toArray data.length 0 ∅

/-- The literal symbol of a piece, and the distance symbol of a copy. -/
def Piece.symbols : Piece → Nat × Option Nat
  | .byte b => (b.toNat, none)
  | .copy length distance =>
    (endSymbol + 1 + (rangeOf lengthRanges length).1, some (rangeOf distanceRanges distance).1)

/-- Counts an occurrence of a number. -/
def countSymbol (table : Array Nat) (s : Nat) : Array Nat :=
  table.setIfInBounds s (table.getD s 0 + 1)

/-- How often each number below `size` occurs, beside `least`. -/
def frequencies (size : Nat) (least : Nat → Nat) (symbols : List Nat) : List Nat :=
  (symbols.foldl countSymbol ((List.range size).map least).toArray).toList

/-- A piece in its codes. -/
def writePiece (literals distances : Array (List Bool)) : Piece → List Bool
  | .byte b => literals.getD b.toNat []
  | .copy length distance =>
    let (symbol, extra) := rangeOf lengthRanges length
    let (place, farther) := rangeOf distanceRanges distance
    literals.getD (endSymbol + 1 + symbol) [] ++ extra ++ distances.getD place [] ++ farther

/-- The code of lengths: all but two words have four bits. -/
def lengthCode : List Nat :=
  List.replicate 15 4 ++ [5, 0, 0, 5]

/-- Writes lengths; eleven zeros and more are a run. -/
def writeLengths (code : Array (List Bool)) : Nat → List Nat → List Bool
  | 0, _ => []
  | _, [] => []
  | steps + 1, length :: rest =>
    let zeros := ((length :: rest).take 138).takeWhile (· == 0)
    if 11 ≤ zeros.length then
      code.getD 18 [] ++ lowFirst 7 (zeros.length - 11) ++
        writeLengths code steps ((length :: rest).drop zeros.length)
    else code.getD length [] ++ writeLengths code steps rest

/-- The lengths of the words for literal symbols. There are two words at least, so that none is
empty. -/
def literalLengths (pieces : List Piece) : List Nat :=
  Weights.boundedLengths 64
    (frequencies 286 (fun s => if s = 0 ∨ s = endSymbol then 1 else 0) (pieces.map (·.symbols.1)))

/-- The lengths of the words for distance symbols, two of them at least. -/
def distanceLengths (pieces : List Piece) : List Nat :=
  Weights.boundedLengths 64
    (frequencies 30 (fun s => if s < 2 then 1 else 0) (pieces.filterMap (·.symbols.2)))

/-- The pieces in one block, the last one: the codes, the pieces in these, and the end. -/
def writeBlock (pieces : List Piece) : List Bool :=
  let literals := literalLengths pieces
  let distances := distanceLengths pieces
  let literalWords := words literals
  let lengths := literals ++ distances
  lowFirst 1 1 ++ lowFirst 2 2 ++
  lowFirst 5 (286 - 257) ++ lowFirst 5 (30 - 1) ++ lowFirst 4 (19 - 4) ++
  lengthOrder.flatMap (fun i => lowFirst 3 (lengthCode.getD i 0)) ++
  writeLengths (words lengthCode) lengths.length lengths ++
  pieces.flatMap (writePiece literalWords (words distances)) ++
  literalWords.getD endSymbol []

/-- The packed data. -/
def deflate (data : List UInt8) : List UInt8 :=
  bytesOf (writeBlock (pieces data))

end SqlToMongo.Gzip
