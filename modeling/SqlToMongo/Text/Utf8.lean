/-!
# Text in bytes

The bytes of a text in UTF-8, and the text of bytes. A byte that is not part of a character reads as
the replacement character.
-/

namespace SqlToMongo.Text

/-- The bytes of a text. -/
def utf8 (s : String) : List UInt8 := s.toUTF8.data.toList

/-- The number of continuation bytes after a first byte, and the bits it carries. -/
def leadByte? (b : Nat) : Option (Nat × Nat) :=
  if b < 0x80 then some (0, b)
  else if 0xC2 ≤ b ∧ b < 0xE0 then some (1, b - 0xC0)
  else if 0xE0 ≤ b ∧ b < 0xF0 then some (2, b - 0xE0)
  else if 0xF0 ≤ b ∧ b < 0xF5 then some (3, b - 0xF0)
  else none

/-- The six bits of a continuation byte. -/
def trailByte? (b : Nat) : Option Nat :=
  if 0x80 ≤ b ∧ b < 0xC0 then some (b - 0x80) else none

/-- The character at the front of bytes, and how many bytes it has. A character must not be written
longer than it needs to be. -/
def frontChar? (bytes : List UInt8) : Option (Char × Nat) := do
  let first ← bytes.head?
  let (count, bits) ← leadByte? first.toNat
  let trail := (bytes.drop 1).take count
  if trail.length ≠ count then failure
  let code ← trail.foldlM (fun n b => (trailByte? b.toNat).map (64 * n + ·)) bits
  let least := [0, 0x80, 0x800, 0x10000].getD count 0
  if code < least ∨ ¬ code.isValidChar then failure
  return (Char.ofNat code, count + 1)

/-- Reads characters; each step takes at least one byte. -/
def decodeFrom : Nat → List UInt8 → List Char
  | 0, _ => []
  | _, [] => []
  | steps + 1, b :: rest =>
    match frontChar? (b :: rest) with
    | some (c, size) => c :: decodeFrom steps (rest.drop (size - 1))
    | none => '\ufffd' :: decodeFrom steps rest

/-- The text of bytes. -/
def ofUtf8 (bytes : List UInt8) : String :=
  match String.fromUTF8? ⟨bytes.toArray⟩ with
  | some s => s
  | none => String.ofList (decodeFrom bytes.length bytes)

end SqlToMongo.Text
