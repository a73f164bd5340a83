import SqlToMongo.Gzip.Huffman
import SqlToMongo.Gzip.Symbol

/-!
# Unpacking

Packed data is a sequence of blocks: stored as they are, coded with the fixed codes, or coded with
codes sent ahead. Every step reads at least one bit, so as many steps as there are bits suffice.
-/

namespace SqlToMongo.Gzip

/-- Appends `length` bytes, each the one `distance` bytes back. -/
def appendCopy (data : Array UInt8) (distance : Nat) : Nat → Array UInt8
  | 0 => data
  | length + 1 => appendCopy (data.push (data.getD (data.size - distance) 0)) distance length

/-- Reads coded pieces up to the end of the block. -/
def inflateCoded (literals distances : Code) :
    Nat → Array UInt8 → List Bool → Option (Array UInt8 × List Bool)
  | 0, _, _ => none
  | steps + 1, data, bits => do
    let (symbol, bits) ← literals.read? bits
    if symbol < endSymbol then
      inflateCoded literals distances steps (data.push (UInt8.ofNat symbol)) bits
    else if symbol = endSymbol then some (data, bits)
    else
      let (length, bits) ← inRange? lengthRanges (symbol - (endSymbol + 1)) bits
      let (place, bits) ← distances.read? bits
      let (distance, bits) ← inRange? distanceRanges place bits
      if data.size < distance then none
      else inflateCoded literals distances steps (appendCopy data distance length) bits

/-- The codes that are not sent. -/
def fixedLiterals : List Nat :=
  List.replicate 144 8 ++ List.replicate 112 9 ++ List.replicate 24 7 ++ List.replicate 8 8

def fixedDistances : List Nat := List.replicate 32 5

/-- Reads `count` lengths; three symbols stand for runs. -/
def readLengths (code : Code) (count : Nat) :
    Nat → List Nat → List Bool → Option (List Nat × List Bool)
  | 0, _, _ => none
  | steps + 1, lengths, bits =>
    if count < lengths.length then none
    else if lengths.length = count then some (lengths.reverse, bits)
    else do
      let (symbol, bits) ← code.read? bits
      if symbol < 16 then readLengths code count steps (symbol :: lengths) bits
      else
        let (base, width) := if symbol = 16 then (3, 2) else if symbol = 17 then (3, 3) else (11, 7)
        let repeated ← if symbol = 16 then lengths.head? else some 0
        let (extra, bits) ← take? width bits
        readLengths code count steps (List.replicate (base + extra) repeated ++ lengths) bits

/-- Reads `count` lengths of three bits. -/
def readShortLengths : Nat → List Bool → Option (List Nat × List Bool)
  | 0, bits => some ([], bits)
  | count + 1, bits => do
    let (length, bits) ← take? 3 bits
    let (lengths, bits) ← readShortLengths count bits
    some (length :: lengths, bits)

/-- Reads the codes of a block. -/
def readCodes (bits : List Bool) : Option ((Code × Code) × List Bool) := do
  let (literalCount, bits) ← take? 5 bits
  let (distanceCount, bits) ← take? 5 bits
  let (lengthCount, bits) ← take? 4 bits
  let (sent, bits) ← readShortLengths (lengthCount + 4) bits
  let placed := lengthOrder.zip sent
  let code ← Code.ofLengths? ((List.range 19).map fun i => (placed.lookup i).getD 0)
  let total := literalCount + 257 + distanceCount + 1
  let (lengths, bits) ← readLengths code total (total + 1) [] bits
  let literals ← Code.ofLengths? (lengths.take (literalCount + 257))
  let distances ← Code.ofLengths? (lengths.drop (literalCount + 257))
  some ((literals, distances), bits)

/-- Reads a stored block; `read` is the number of bits read so far, so that its bytes start at a
byte's start. -/
def readStored (read : Nat) (data : Array UInt8) (bits : List Bool) :
    Option (Array UInt8 × List Bool) := do
  let bits := bits.drop ((8 - read % 8) % 8)
  let (length, bits) ← take? 16 bits
  let (check, bits) ← take? 16 bits
  if length + check ≠ 0xFFFF ∨ bits.length < 8 * length then none
  else some (data ++ (bytesOf (bits.take (8 * length))).toArray, bits.drop (8 * length))

/-- Reads one block, and whether it is the last. -/
def readBlock (total : Nat) (data : Array UInt8) (bits : List Bool) :
    Option (Bool × Array UInt8 × List Bool) := do
  let (last, bits) ← take? 1 bits
  let (kind, bits) ← take? 2 bits
  let (data, bits) ←
    if kind = 0 then readStored (total - bits.length) data bits
    else if kind = 1 then do
      inflateCoded (← Code.ofLengths? fixedLiterals) (← Code.ofLengths? fixedDistances)
        bits.length data bits
    else if kind = 2 then do
      let ((literals, distances), bits) ← readCodes bits
      inflateCoded literals distances bits.length data bits
    else none
  some (last == 1, data, bits)

/-- Reads blocks up to the last one. -/
def readBlocks (total : Nat) : Nat → Array UInt8 → List Bool → Option (Array UInt8 × List Bool)
  | 0, _, _ => none
  | steps + 1, data, bits => do
    let (last, data, bits) ← readBlock total data bits
    if last then some (data, bits) else readBlocks total steps data bits

/-- The data of packed bytes, and the bytes after it. -/
def inflate? (bytes : List UInt8) : Option (List UInt8 × List UInt8) := do
  let bits := bitsOf bytes
  let (data, rest) ← readBlocks bits.length bits.length #[] bits
  some (data.toList, bytes.drop (bytes.length - rest.length / 8))

end SqlToMongo.Gzip
