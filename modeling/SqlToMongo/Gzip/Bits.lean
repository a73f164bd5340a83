/-!
# Bit streams

A stream of bytes as a stream of bits, the least significant bit of each byte first. Readers return
what they read and the rest.
-/

namespace SqlToMongo.Gzip

/-- A number in `width` bits, the least significant first. -/
def lowFirst : Nat → Nat → List Bool
  | 0, _ => []
  | width + 1, n => (n % 2 == 1) :: lowFirst width (n / 2)

/-- A number in `width` bits, the most significant first. -/
def highFirst (width n : Nat) : List Bool := (lowFirst width n).reverse

/-- The number of bits, the least significant first. -/
def number : List Bool → Nat
  | [] => 0
  | b :: bits => b.toNat + 2 * number bits

/-- The bits of bytes. -/
def bitsOf (bytes : List UInt8) : List Bool :=
  bytes.flatMap fun b => lowFirst 8 b.toNat

/-- The bytes of bits; the last one is filled with zeros. -/
def bytesOf : List Bool → List UInt8
  | b0 :: b1 :: b2 :: b3 :: b4 :: b5 :: b6 :: b7 :: rest =>
    UInt8.ofNat (number [b0, b1, b2, b3, b4, b5, b6, b7]) :: bytesOf rest
  | [] => []
  | bits => [UInt8.ofNat (number bits)]

/-- The number in the next `width` bits. -/
def take? (width : Nat) (bits : List Bool) : Option (Nat × List Bool) :=
  let taken := bits.take width
  if taken.length = width then some (number taken, bits.drop width) else none

/-- A number in bytes, the least significant first. -/
def littleEndian : Nat → Nat → List UInt8
  | 0, _ => []
  | width + 1, n => UInt8.ofNat n :: littleEndian width (n / 256)

/-- The number of bytes, the least significant first. -/
def ofLittleEndian : List UInt8 → Nat
  | [] => 0
  | b :: bytes => b.toNat + 256 * ofLittleEndian bytes

theorem number_lowFirst (width n : Nat) :
    number (lowFirst width n) = n % Nat.pow 2 width := by
  induction width generalizing n with
  | zero => simp [lowFirst, number, Nat.mod_one]
  | succ width ih =>
    have double : Nat.pow 2 (width + 1) = 2 * Nat.pow 2 width := Nat.mul_comm _ _
    have split : n % Nat.pow 2 (width + 1) = n % 2 + 2 * (n / 2 % Nat.pow 2 width) := by
      rw [double, Nat.mod_mul]
    rw [lowFirst, number, ih, split]
    rcases Nat.mod_two_eq_zero_or_one n with h | h <;> simp [h]

end SqlToMongo.Gzip
