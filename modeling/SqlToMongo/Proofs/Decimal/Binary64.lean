import Mathlib.Algebra.Order.Field.Basic
import Mathlib.Algebra.Order.Field.Power
import Mathlib.Algebra.Order.Field.Rat
import Mathlib.Tactic.Linarith
import Mathlib.Tactic.FieldSimp
import SqlToMongo.Decimal.Binary64

/-!
# Double precision numbers as quotients

A finite number is `m · 2^q`, with `m` below `2^53`, and at least `2^52` unless `q` is the least
scale. Sign, `m` and `q` tell the number. Rounding a quotient gives a number of this shape, so what
it gives is finite. It gives none for what is nearer to `2^1024` than to the greatest number, or
halfway between them.

## Main results

`eq_of_parts`: sign, significand and scale tell a number.
`isFinite_of_ofRatio?`: a quotient rounds to a finite number.
`ofDecimal?_eq_none_iff`: the integers that are too large.
-/

namespace SqlToMongo.Decimal

/-- A power with an integer exponent as a quotient of powers with natural ones. -/
theorem zpow_eq_toNat_div {b : ℚ} (nonzero : b ≠ 0) (z : ℤ) :
    b ^ z = b ^ z.toNat / b ^ (-z).toNat := by
  have exponents : z = (z.toNat : ℤ) - ((-z).toNat : ℤ) := by omega
  calc b ^ z = b ^ ((z.toNat : ℤ) - ((-z).toNat : ℤ)) := by rw [← exponents]
    _ = b ^ z.toNat / b ^ (-z).toNat := by rw [zpow_sub₀ nonzero, zpow_natCast, zpow_natCast]

namespace Binary64

/-! ### The parts of a number -/

theorem toNat_bits (x : Binary64) :
    x.bits.toNat = (if x.isNegative then signWeight else 0) + x.exponentBits * exponentWeight +
      x.fractionBits := by
  have word := x.bits.toNat_lt
  simp only [isNegative, exponentBits, fractionBits, signWeight, exponentWeight, beq_iff_eq]
  split <;> omega

theorem significand_lt (x : Binary64) : x.significand < 9007199254740992 := by
  simp only [significand, fractionBits, exponentWeight]
  split <;> omega

/-- Only on the least scale is a significand below `2^52`. -/
theorem le_significand {x : Binary64} (normal : -1074 < x.scale) :
    4503599627370496 ≤ x.significand := by
  simp only [scale, significand, exponentWeight] at normal ⊢
  split at normal <;> rename_i bits <;> simp [bits] at normal ⊢

theorem scale_ge (x : Binary64) : -1074 ≤ x.scale := by
  simp only [scale]
  split <;> omega

theorem significand_eq_zero_iff {x : Binary64} : x.significand = 0 ↔ x.isZero = true := by
  simp only [significand, isZero, exponentWeight, Bool.and_eq_true, beq_iff_eq]
  split <;> omega

theorem significand_pos {x : Binary64} (nonzero : x.isZero = false) : 0 < x.significand := by
  apply Nat.pos_of_ne_zero
  rw [Ne, significand_eq_zero_iff, nonzero]
  exact Bool.false_ne_true

theorem eq_of_parts {x y : Binary64} (sign : x.isNegative = y.isNegative)
    (significands : x.significand = y.significand) (scales : x.scale = y.scale) : x = y := by
  have first := toNat_bits x
  have second := toNat_bits y
  have fraction : x.fractionBits < 4503599627370496 := Nat.mod_lt _ (by decide)
  have fraction' : y.fractionBits < 4503599627370496 := Nat.mod_lt _ (by decide)
  have bits : x.bits.toNat = y.bits.toNat := by
    rw [first, second, sign]
    simp only [significand, scale, exponentWeight] at significands scales ⊢
    -- The least scale has two exponents, which the size of the significand tells apart.
    by_cases subnormal : x.exponentBits = 0 <;> by_cases subnormal' : y.exponentBits = 0 <;>
      simp only [subnormal, subnormal', if_true, if_false] at significands scales ⊢ <;> omega
  cases x
  cases y
  exact congrArg Binary64.mk (UInt64.toNat_inj.mp bits)

/-! ### Rounding -/

/-- There is one zero of each sign. -/
theorem eq_of_isZero {x y : Binary64} (sign : x.isNegative = y.isNegative)
    (zero : x.isZero = true) (zero' : y.isZero = true) : x = y := by
  have scale {z : Binary64} (zero : z.isZero = true) : z.scale = -1074 := by
    simp only [isZero, Bool.and_eq_true, beq_iff_eq] at zero
    rw [Binary64.scale, if_pos zero.1]
  apply eq_of_parts sign
  · rw [significand_eq_zero_iff.mpr zero, significand_eq_zero_iff.mpr zero']
  · rw [scale zero, scale zero']

theorem isFinite_assemble {negative : Bool} {m : Nat} {q : Int} (small : m < 9007199254740992)
    (high : q ≤ 971) : (assemble negative m q).isFinite = true := by
  have bound : (q + 1075).toNat ≤ 2046 := by omega
  have sign : (if negative then 9223372036854775808 else 0) % 18446744073709551616 %
      9223372036854775808 = 0 := by cases negative <;> rfl
  generalize weight : (if negative then 9223372036854775808 else 0) = s at sign
  have exponent : ∀ n, n < 9218868437227405312 →
      (Binary64.mk (UInt64.ofNat (s + n))).isFinite = true := by
    intro n below
    simp only [isFinite, exponentBits, exponentWeight, UInt64.toNat_ofNat', bne_iff_ne]
    omega
  simp only [assemble, exponentWeight, signWeight, weight]
  by_cases subnormal : m < 4503599627370496
  · rw [if_pos subnormal]
    exact exponent m (by omega)
  · rw [if_neg subnormal, Nat.add_assoc]
    exact exponent _ (by omega)

theorem roundQuotient_le {num den bound : Nat} (below : num < bound * den) :
    roundQuotient num den ≤ bound := by
  have low : num / den < bound := Nat.div_lt_of_lt_mul (by rwa [Nat.mul_comm] at below)
  simp only [roundQuotient]
  split
  · omega
  · split <;> omega

/-- The quotient is below the next power of two. -/
theorem lt_log2Ratio {num den : Nat} (positive : 0 < den) :
    (num : ℚ) / den < 2 ^ (log2Ratio num den + 1) := by
  have den_pos : (0 : ℚ) < den := by exact_mod_cast positive
  have above : (num : ℚ) < 2 ^ (Nat.log2 num + 1) := by exact_mod_cast Nat.lt_log2_self
  have below : (2 : ℚ) ^ Nat.log2 den ≤ den := by
    exact_mod_cast Nat.log2_self_le (Nat.ne_of_gt positive)
  unfold log2Ratio
  simp only [ge_iff_le]
  generalize size : (Nat.log2 num : Int) - Nat.log2 den = l
  split
  next =>
    rw [div_lt_iff₀ den_pos]
    calc (num : ℚ) < 2 ^ (Nat.log2 num + 1) := above
      _ = 2 ^ (l + 1) * 2 ^ Nat.log2 den := by
        rw [← zpow_natCast, ← zpow_natCast, ← zpow_add₀ two_ne_zero]
        congr 1
        push_cast
        omega
      _ ≤ 2 ^ (l + 1) * den := by
        exact mul_le_mul_of_nonneg_left below (by positivity)
  next smaller =>
    -- The guess was one too high: the quotient is below the power that was guessed.
    have nat : num * Nat.pow 2 (-l).toNat < den * Nat.pow 2 l.toNat := by omega
    have cast : (num : ℚ) * 2 ^ (-l).toNat < den * 2 ^ l.toNat := by exact_mod_cast nat
    rw [sub_add_cancel, div_lt_iff₀ den_pos, zpow_eq_toNat_div two_ne_zero, div_mul_eq_mul_div,
      lt_div_iff₀ (by positivity)]
    linarith

/-- A quotient rounds to a finite number. -/
theorem isFinite_of_ofRatio? {negative : Bool} {num den : Nat} (positive : 0 < den)
    {x : Binary64} (rounded : ofRatio? negative num den = some x) : x.isFinite = true := by
  unfold ofRatio? at rounded
  split at rounded
  next =>
    obtain rfl := Option.some.inj rounded
    exact isFinite_assemble (by decide) (by decide)
  next =>
    dsimp only at rounded
    generalize scaled : max (log2Ratio num den - 52) (-1074) = q at rounded
    -- The scale leaves at most 53 bits before rounding.
    have quotient : num * Nat.pow 2 (-q).toNat < 9007199254740992 * (den * Nat.pow 2 q.toNat) := by
      have den_pos : (0 : ℚ) < den := by exact_mod_cast positive
      have bound : (num : ℚ) / den < 9007199254740992 * 2 ^ q :=
        calc (num : ℚ) / den < 2 ^ (log2Ratio num den + 1) := lt_log2Ratio positive
          _ ≤ 2 ^ (53 + q) := zpow_le_zpow_right₀ one_le_two (by omega)
          _ = 9007199254740992 * 2 ^ q := by rw [zpow_add₀ two_ne_zero]; norm_num
      rw [div_lt_iff₀ den_pos, zpow_eq_toNat_div two_ne_zero, mul_div_assoc', div_mul_eq_mul_div,
        lt_div_iff₀ (by positivity)] at bound
      have cast : ((num * 2 ^ (-q).toNat : Nat) : ℚ) <
          ((9007199254740992 * (den * 2 ^ q.toNat) : Nat) : ℚ) := by
        push_cast
        linarith
      exact_mod_cast cast
    have small := roundQuotient_le quotient
    generalize roundQuotient (num * Nat.pow 2 (-q).toNat) (den * Nat.pow 2 q.toNat) = m at *
    simp only [exponentWeight] at rounded
    by_cases carry : m = 2 * 4503599627370496
    · simp only [carry, if_true] at rounded
      split at rounded <;> simp only [reduceCtorEq, Option.some.injEq] at rounded
      rw [← rounded]
      exact isFinite_assemble (by decide) (by omega)
    · simp only [carry, if_false] at rounded
      split at rounded <;> simp only [reduceCtorEq, Option.some.injEq] at rounded
      rw [← rounded]
      exact isFinite_assemble (by omega) (by omega)

theorem isFinite_of_ofDecimal? {negative : Bool} {n : Nat} {e : Int} {x : Binary64}
    (rounded : ofDecimal? negative n e = some x) : x.isFinite = true :=
  isFinite_of_ofRatio? (Nat.pow_pos (by decide)) rounded

/-! ### Overflow -/

theorem log2Ratio_one {n : Nat} (positive : 0 < n) : log2Ratio n 1 = Nat.log2 n := by
  have reached : 2 ^ Nat.log2 n ≤ n := Nat.log2_self_le (Nat.ne_of_gt positive)
  have one : Nat.log2 1 = 0 := by decide
  have guess : n * Nat.pow 2 (-((Nat.log2 n : Int) - (0 : Nat))).toNat ≥
      1 * Nat.pow 2 ((Nat.log2 n : Int) - (0 : Nat)).toNat := by
    have down : (-((Nat.log2 n : Int) - (0 : Nat))).toNat = 0 := by omega
    have up : ((Nat.log2 n : Int) - (0 : Nat)).toNat = Nat.log2 n := by omega
    simpa [down, up] using reached
  rw [log2Ratio, one, if_pos guess]
  omega

/-- A quotient just below a power of two is rounded up to it from the middle of the last step on. -/
theorem roundQuotient_eq_iff {n half : Nat} (positive : 0 < half)
    (below : n < 18014398509481984 * half) :
    roundQuotient n (2 * half) = 9007199254740992 ↔ 18014398509481983 * half ≤ n := by
  have whole := Nat.div_add_mod n (2 * half)
  have rest := Nat.mod_lt n (show 2 * half > 0 by omega)
  have last : n / (2 * half) ≤ 9007199254740991 := by
    apply Nat.le_of_lt_succ
    rw [Nat.div_lt_iff_lt_mul (by omega)]
    omega
  simp only [roundQuotient]
  generalize n / (2 * half) = low at *
  generalize n % (2 * half) = r at *
  by_cases top : low = 9007199254740991
  · subst top
    split <;> [skip; split] <;> omega
  · have low' : 2 * half * low ≤ 2 * half * 9007199254740990 := Nat.mul_le_mul_left _ (by omega)
    split <;> [skip; split] <;> omega

/-- An integer is too large exactly when it is beyond the middle between the greatest number and the
power of two above it. -/
theorem ofDecimal?_eq_none_iff {negative : Bool} {n : Nat} :
    ofDecimal? negative n 0 = none ↔ 2 ^ 1024 - 2 ^ 970 ≤ n := by
  have integer : ofDecimal? negative n 0 = ofRatio? negative n 1 := by simp [ofDecimal?]
  rw [integer, show 1024 = 54 + 970 from rfl, Nat.pow_add]
  -- Powers of this size are kept as they are, by a name for the exponent.
  generalize exponent : 970 = e
  have positive : 0 < 2 ^ e := Nat.two_pow_pos e
  by_cases zero : n = 0
  · simp only [ofRatio?, if_pos zero, reduceCtorEq, false_iff]
    omega
  have low : 2 ^ Nat.log2 n ≤ n := Nat.log2_self_le zero
  have high : n < 2 ^ (Nat.log2 n + 1) := Nat.lt_log2_self
  have scale : max ((Nat.log2 n : Int) - 52) (-1074) = (Nat.log2 n : Int) - 52 := by omega
  simp only [ofRatio?, if_neg zero, log2Ratio_one (Nat.pos_of_ne_zero zero), scale, exponentWeight]
  rcases Nat.lt_trichotomy (Nat.log2 n) (e + 53) with small | level | large
  · -- Rounding up reaches the last binade at most.
    have room : n < 2 ^ e * 2 ^ 53 := by
      rw [← Nat.pow_add]
      exact Nat.lt_of_lt_of_le high (Nat.pow_le_pow_right (by decide) small)
    split <;> simp only [gt_iff_lt, ite_eq_left_iff, reduceCtorEq, imp_false, not_not] <;> omega
  · have shift : (-((Nat.log2 n : Int) - 52)).toNat = 0 := by omega
    have weight : ((Nat.log2 n : Int) - 52).toNat = e + 1 := by omega
    have room : n < 18014398509481984 * 2 ^ e := by
      rw [level, Nat.add_assoc, Nat.pow_add] at high
      omega
    have carry := roundQuotient_eq_iff positive room
    simp only [shift, weight, Nat.pow_eq, Nat.pow_zero, Nat.mul_one, Nat.one_mul, Nat.pow_succ']
    generalize roundQuotient n (2 * 2 ^ e) = m at *
    split <;> simp only [gt_iff_lt, ite_eq_left_iff, reduceCtorEq, imp_false, not_not] <;> omega
  · have beyond : 2 ^ e * 2 ^ 54 ≤ n := by
      rw [← Nat.pow_add]
      exact Nat.le_trans (Nat.pow_le_pow_right (by decide) large) low
    split <;> simp only [gt_iff_lt, ite_eq_left_iff, reduceCtorEq, imp_false, not_not] <;> omega

end Binary64

end SqlToMongo.Decimal
