import SqlToMongo.Gzip.Bits

/-!
# Symbols of packed data

Packed data is a sequence of bytes and of copies of earlier bytes. The length and the distance of a
copy are each a symbol, which fixes a range, and extra bits, which fix the place in it.
-/

namespace SqlToMongo.Gzip

/-- A piece of the data. -/
inductive Piece where
  | byte (value : UInt8)
  /-- `length` bytes from `distance` bytes back. -/
  | copy (length distance : Nat)
  deriving DecidableEq, Repr

/-- The symbol that ends a block. -/
def endSymbol : Nat := 256

/-- The least length and the extra bits of each length symbol, from 257 on. -/
def lengthRanges : List (Nat × Nat) :=
  [(3, 0), (4, 0), (5, 0), (6, 0), (7, 0), (8, 0), (9, 0), (10, 0), (11, 1), (13, 1), (15, 1),
   (17, 1), (19, 2), (23, 2), (27, 2), (31, 2), (35, 3), (43, 3), (51, 3), (59, 3), (67, 4),
   (83, 4), (99, 4), (115, 4), (131, 5), (163, 5), (195, 5), (227, 5), (258, 0)]

/-- The least distance and the extra bits of each distance symbol. -/
def distanceRanges : List (Nat × Nat) :=
  [(1, 0), (2, 0), (3, 0), (4, 0), (5, 1), (7, 1), (9, 2), (13, 2), (17, 3), (25, 3), (33, 4),
   (49, 4), (65, 5), (97, 5), (129, 6), (193, 6), (257, 7), (385, 7), (513, 8), (769, 8), (1025, 9),
   (1537, 9), (2049, 10), (3073, 10), (4097, 11), (6145, 11), (8193, 12), (12289, 12), (16385, 13),
   (24577, 13)]

/-- The last range that starts at or below a number: its place and the extra bits of the number. -/
def rangeOf (ranges : List (Nat × Nat)) (n : Nat) : Nat × List Bool :=
  match (ranges.zipIdx.filter (·.1.1 ≤ n)).getLast? with
  | some ((base, width), i) => (i, lowFirst width (n - base))
  | none => (0, [])

/-- The number in a range of a given place, with its extra bits read. -/
def inRange? (ranges : List (Nat × Nat)) (i : Nat) (bits : List Bool) : Option (Nat × List Bool) := do
  let (base, width) ← ranges[i]?
  let (extra, bits) ← take? width bits
  some (base + extra, bits)

/-- The order in which the lengths of the code of lengths are sent. -/
def lengthOrder : List Nat :=
  [16, 17, 18, 0, 8, 7, 9, 6, 10, 5, 11, 4, 12, 3, 13, 2, 14, 1, 15]

end SqlToMongo.Gzip
