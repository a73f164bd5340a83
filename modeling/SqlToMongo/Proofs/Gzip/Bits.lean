import Mathlib.Tactic.Ring
import SqlToMongo.Gzip.Bits

/-!
# Numbers and bytes as bits

A number that is written in bits is read back, as far as it fits. Bits that are packed into bytes
come back with at most seven zeros behind them, which fill the last byte.
-/

namespace SqlToMongo.Gzip

@[simp]
theorem length_lowFirst (width n : Nat) : (lowFirst width n).length = width := by
  induction width generalizing n with
  | zero => rfl
  | succ width ih => rw [lowFirst, List.length_cons, ih]

theorem take?_lowFirst {width n : Nat} (fits : n < 2 ^ width) (rest : List Bool) :
    take? width (lowFirst width n ++ rest) = some (n, rest) := by
  have whole : number (lowFirst width n) = n :=
    (number_lowFirst width n).trans (Nat.mod_eq_of_lt fits)
  have taken : (lowFirst width n ++ rest).take width = lowFirst width n :=
    List.take_left' (length_lowFirst width n)
  have left : (lowFirst width n ++ rest).drop width = rest :=
    List.drop_left' (length_lowFirst width n)
  simp [take?, taken, left, whole]

theorem number_lt (bits : List Bool) : number bits < 2 ^ bits.length := by
  induction bits with
  | nil => simp [number]
  | cons b bits ih =>
    have bit : b.toNat < 2 := Bool.toNat_lt b
    rw [number, List.length_cons, pow_succ]
    omega

theorem lowFirst_zero (width : Nat) : lowFirst width 0 = List.replicate width false := by
  induction width with
  | zero => rfl
  | succ width ih => simp [lowFirst, ih, List.replicate_succ]

/-- The number of bits has these bits, and zeros behind them. -/
theorem lowFirst_number (bits : List Bool) (fill : Nat) :
    lowFirst (bits.length + fill) (number bits) = bits ++ List.replicate fill false := by
  induction bits with
  | nil => simp [number, lowFirst_zero]
  | cons b bits ih =>
    have first : (number (b :: bits) % 2 == 1) = b := by
      cases b <;> simp [number]
    have others : number (b :: bits) / 2 = number bits := by
      have bit : b.toNat < 2 := Bool.toNat_lt b
      rw [number]
      omega
    rw [List.length_cons, Nat.add_right_comm, lowFirst, first, others, ih, List.cons_append]

/-! ### Bytes -/

theorem bitsOf_append (a b : List UInt8) : bitsOf (a ++ b) = bitsOf a ++ bitsOf b :=
  List.flatMap_append

theorem length_bitsOf (bytes : List UInt8) : (bitsOf bytes).length = 8 * bytes.length := by
  induction bytes with
  | nil => rfl
  | cons b bytes ih =>
    rw [bitsOf, List.flatMap_cons, List.length_append, length_lowFirst, List.length_cons, ← bitsOf,
      ih]
    ring

/-- At most eight bits as a byte. -/
theorem bitsOf_byte {bits : List Bool} {fill : Nat} (byte : bits.length + fill = 8) :
    lowFirst 8 (UInt8.ofNat (number bits)).toNat = bits ++ List.replicate fill false := by
  have bound : number bits < 2 ^ 8 :=
    (number_lt bits).trans_le (Nat.pow_le_pow_right (by decide) (by omega))
  rw [UInt8.toNat_ofNat_of_lt' bound, ← byte, lowFirst_number]

theorem bitsOf_bytesOf (bits : List Bool) :
    ∃ fill < 8, bitsOf (bytesOf bits) = bits ++ List.replicate fill false := by
  induction bits using bytesOf.induct with
  | case1 b0 b1 b2 b3 b4 b5 b6 b7 rest ih =>
    obtain ⟨fill, small, packed⟩ := ih
    have byte := @bitsOf_byte [b0, b1, b2, b3, b4, b5, b6, b7] 0 rfl
    refine ⟨fill, small, ?_⟩
    rw [bytesOf, bitsOf, List.flatMap_cons, ← bitsOf, packed, byte]
    simp
  | case2 => exact ⟨0, by decide, rfl⟩
  | case3 bits short nonempty =>
    have some : bits.length ≠ 0 := by simpa using nonempty
    -- Eight bits or more would have been the first case.
    have few : bits.length < 8 := by
      match bits, short with
      | [], _ | [_], _ | [_, _], _ | [_, _, _], _ | [_, _, _, _], _ | [_, _, _, _, _], _
      | [_, _, _, _, _, _], _ | [_, _, _, _, _, _, _], _ => simp
      | b0 :: b1 :: b2 :: b3 :: b4 :: b5 :: b6 :: b7 :: rest, short =>
        exact (short b0 b1 b2 b3 b4 b5 b6 b7 rest rfl).elim
    have byte := @bitsOf_byte bits (8 - bits.length) (by omega)
    refine ⟨8 - bits.length, by omega, ?_⟩
    rw [bytesOf, bitsOf, List.flatMap_singleton, byte]
    · exact short
    · exact nonempty

/-! ### Numbers in bytes -/

theorem length_littleEndian (width n : Nat) : (littleEndian width n).length = width := by
  induction width generalizing n with
  | zero => rfl
  | succ width ih => rw [littleEndian, List.length_cons, ih]

theorem ofLittleEndian_littleEndian (width n : Nat) :
    ofLittleEndian (littleEndian width n) = n % 256 ^ width := by
  induction width generalizing n with
  | zero => simp [littleEndian, ofLittleEndian, Nat.mod_one]
  | succ width ih =>
    have byte : (UInt8.ofNat n).toNat = n % 256 := UInt8.toNat_ofNat'
    rw [littleEndian, ofLittleEndian, ih, byte, pow_succ, mul_comm _ 256, Nat.mod_mul]

end SqlToMongo.Gzip
