import Mathlib.Tactic.Ring
import SqlToMongo.Decimal.Shortest
import SqlToMongo.Proofs.Decimal.Binary64

/-!
# The shortest digits belong to one number

The quotients that round to a number form an interval around it. Intervals of different numbers do
not meet: they touch at most at an end, which counts for one of them only. The search for digits
takes a point of the interval, and the grid of seventeen digits is so fine that it has one. So the
digits that are found tell the number.

## Main results

`Rounds.unique`: a quotient rounds to one number.
`exists_shortest`: the shortest digits round to the number.
-/

namespace SqlToMongo.Decimal

open Binary64

/-! ### The interval of a number -/

/-- How far the interval of a number reaches below it, in units of its last place. -/
def reachBelow (x : Binary64) : ℚ :=
  if x.fractionBits = 0 ∧ 1 < x.exponentBits then 1 / 4 else 1 / 2

/-- The quotient rounds to the number, which is not zero. The ends of the interval round to the even
significand. -/
def Rounds (x : Binary64) (r : ℚ) : Prop :=
  if x.significand % 2 = 0 then
    (x.significand - reachBelow x) * 2 ^ x.scale ≤ r ∧ r ≤ (x.significand + 1 / 2) * 2 ^ x.scale
  else
    (x.significand - reachBelow x) * 2 ^ x.scale < r ∧ r < (x.significand + 1 / 2) * 2 ^ x.scale

theorem reachBelow_le (x : Binary64) : reachBelow x ≤ 1 / 2 := by
  unfold reachBelow
  split <;> norm_num

namespace Rounds

variable {x y : Binary64} {r : ℚ}

theorem low_le (rounds : Rounds x r) : (x.significand - reachBelow x) * 2 ^ x.scale ≤ r := by
  unfold Rounds at rounds
  split at rounds
  · exact rounds.1
  · exact rounds.1.le

theorem le_high (rounds : Rounds x r) : r ≤ (x.significand + 1 / 2) * 2 ^ x.scale := by
  unfold Rounds at rounds
  split at rounds
  · exact rounds.2
  · exact rounds.2.le

theorem of_odd (rounds : Rounds x r) (odd : x.significand % 2 = 1) :
    (x.significand - reachBelow x) * 2 ^ x.scale < r ∧
      r < (x.significand + 1 / 2) * 2 ^ x.scale := by
  unfold Rounds at rounds
  rwa [if_neg (by omega)] at rounds

theorem of_inside (low : (x.significand - reachBelow x) * 2 ^ x.scale < r)
    (high : r < (x.significand + 1 / 2) * 2 ^ x.scale) : Rounds x r := by
  unfold Rounds
  split
  · exact ⟨low.le, high.le⟩
  · exact ⟨low, high⟩

theorem pos (nonzero : x.isZero = false) (rounds : Rounds x r) : 0 < r := by
  have positive := significand_pos nonzero
  have one : (1 : ℚ) ≤ x.significand := by exact_mod_cast positive
  have reach := reachBelow_le x
  have low : 0 < (x.significand - reachBelow x) * 2 ^ x.scale :=
    mul_pos (by linarith) (by positivity)
  exact lt_of_lt_of_le low rounds.low_le

/-- Neighbours on one scale have different parity, so they do not share the end between them. -/
theorem significand_not_lt (first : Rounds x r) (second : Rounds y r)
    (scales : x.scale = y.scale) : ¬x.significand < y.significand := by
  intro smaller
  have unit : (0 : ℚ) < 2 ^ y.scale := by positivity
  have reach := reachBelow_le y
  have high := first.le_high
  have low := second.low_le
  rw [scales] at high
  have bounds : ((y.significand : ℚ) - reachBelow y) * 2 ^ y.scale ≤
      (x.significand + 1 / 2) * 2 ^ y.scale := low.trans high
  have near : (y.significand : ℚ) - 1 / 2 ≤ x.significand + 1 / 2 := by
    have := le_of_mul_le_mul_right bounds unit
    linarith
  have next : y.significand = x.significand + 1 := by
    have : (y.significand : ℚ) ≤ x.significand + 1 := by linarith
    have : y.significand ≤ x.significand + 1 := by exact_mod_cast this
    omega
  have cast : (y.significand : ℚ) = x.significand + 1 := by exact_mod_cast next
  rcases Nat.mod_two_eq_zero_or_one x.significand with even | odd
  · have strict := (second.of_odd (by omega)).1
    have : ((y.significand : ℚ) - reachBelow y) * 2 ^ y.scale <
        (x.significand + 1 / 2) * 2 ^ y.scale := lt_of_lt_of_le strict high
    have := lt_of_mul_lt_mul_right this unit.le
    linarith
  · have strict := (first.of_odd odd).2
    rw [scales] at strict
    have : ((y.significand : ℚ) - reachBelow y) * 2 ^ y.scale <
        (x.significand + 1 / 2) * 2 ^ y.scale := lt_of_le_of_lt low strict
    have := lt_of_mul_lt_mul_right this unit.le
    linarith

/-- The interval of a number on a higher scale starts where the numbers below that scale end. -/
theorem scale_not_lt (first : Rounds x r) (second : Rounds y r) : ¬x.scale < y.scale := by
  intro smaller
  have unit : (0 : ℚ) < 2 ^ x.scale := by positivity
  have double : 2 * (2 : ℚ) ^ x.scale ≤ 2 ^ y.scale :=
    calc 2 * (2 : ℚ) ^ x.scale = 2 ^ (1 + x.scale) := by rw [zpow_add₀ two_ne_zero, zpow_one]
      _ ≤ 2 ^ y.scale := zpow_le_zpow_right₀ one_le_two (by omega)
  -- The last significand of a scale is odd, so its end is never reached from below.
  have below : r < (9007199254740992 - 1 / 2) * 2 ^ x.scale := by
    have bound := significand_lt x
    by_cases last : x.significand = 9007199254740991
    · have strict := (first.of_odd (by omega)).2
      rw [last] at strict
      norm_num at strict ⊢
      exact strict
    · have cast : (x.significand : ℚ) ≤ 9007199254740990 := by
        have : x.significand ≤ 9007199254740990 := by omega
        exact_mod_cast this
      refine lt_of_le_of_lt first.le_high (mul_lt_mul_of_pos_right ?_ unit)
      linarith
  have above : (4503599627370496 - 1 / 4) * 2 ^ y.scale ≤ r := by
    have normal : -1074 < y.scale := lt_of_le_of_lt (scale_ge x) smaller
    have bound := le_significand normal
    refine le_trans (mul_le_mul_of_nonneg_right ?_ (by positivity)) second.low_le
    unfold reachBelow
    split
    · have cast : (4503599627370496 : ℚ) ≤ y.significand := by exact_mod_cast bound
      linarith
    next inner =>
      -- Inside a scale the significand is above the first one.
      have more : 4503599627370497 ≤ y.significand := by
        simp only [scale, significand, exponentWeight] at normal bound inner ⊢
        split at normal
        · omega
        next exponent => simp only [exponent, if_false] at bound ⊢; omega
      have cast : (4503599627370497 : ℚ) ≤ y.significand := by exact_mod_cast more
      linarith
  linarith

theorem unique (first : Rounds x r) (second : Rounds y r) :
    x.significand = y.significand ∧ x.scale = y.scale := by
  have scales : x.scale = y.scale :=
    le_antisymm (not_lt.mp (scale_not_lt second first)) (not_lt.mp (scale_not_lt first second))
  have significands : x.significand = y.significand :=
    le_antisymm (not_lt.mp (significand_not_lt second first scales.symm))
      (not_lt.mp (significand_not_lt first second scales))
  exact ⟨significands, scales⟩

end Rounds

/-! ### The search -/

namespace Shortest

theorem den_interval_pos (x : Binary64) : 0 < (interval x).den :=
  Nat.pow_pos (by decide)

theorem pow_interval (x : Binary64) :
    (2 : ℚ) ^ (x.scale - 2).toNat / (interval x).den = 2 ^ x.scale / 4 := by
  have den : ((interval x).den : ℚ) = 2 ^ (-(x.scale - 2)).toNat := by
    simp only [interval]
    exact_mod_cast rfl
  rw [den, ← zpow_eq_toNat_div two_ne_zero, zpow_sub₀ two_ne_zero]
  norm_num

theorem value_interval (x : Binary64) :
    ((interval x).value : ℚ) / (interval x).den = x.significand * 2 ^ x.scale := by
  have value : ((interval x).value : ℚ) = 4 * x.significand * 2 ^ (x.scale - 2).toNat := by
    simp only [interval]
    exact_mod_cast rfl
  rw [value, mul_div_assoc, pow_interval]
  ring

theorem high_interval (x : Binary64) :
    ((interval x).high : ℚ) / (interval x).den = (x.significand + 1 / 2) * 2 ^ x.scale := by
  have high : ((interval x).high : ℚ) = (4 * x.significand + 2) * 2 ^ (x.scale - 2).toNat := by
    simp only [interval]
    exact_mod_cast rfl
  rw [high, mul_div_assoc, pow_interval]
  ring

theorem low_interval {x : Binary64} (nonzero : x.isZero = false) :
    ((interval x).low : ℚ) / (interval x).den =
      (x.significand - reachBelow x) * 2 ^ x.scale := by
  have positive := significand_pos nonzero
  have low : ((interval x).low : ℚ) =
      4 * (x.significand - reachBelow x) * 2 ^ (x.scale - 2).toNat := by
    simp only [interval, reachBelow]
    split
    · have cast : ((4 * x.significand - 1 : Nat) : ℚ) = 4 * x.significand - 1 := by
        rw [Nat.cast_sub (by omega)]
        norm_num
      push_cast [Nat.pow_eq]
      rw [cast]
      ring
    · have cast : ((4 * x.significand - 2 : Nat) : ℚ) = 4 * x.significand - 2 := by
        rw [Nat.cast_sub (by omega)]
        norm_num
      push_cast [Nat.pow_eq]
      rw [cast]
      ring
  rw [low, mul_div_assoc, pow_interval]
  ring

/-- The test of the search is the interval. -/
theorem holds_interval_iff {x : Binary64} (nonzero : x.isZero = false) {n scale : Nat}
    (positive : 0 < scale) :
    (interval x).holds n scale = true ↔ Rounds x ((n : ℚ) / scale) := by
  have den : (0 : ℚ) < (interval x).den := by exact_mod_cast den_interval_pos x
  have unit : (0 : ℚ) < scale := by exact_mod_cast positive
  have closed : (interval x).closed = (x.significand % 2 == 0) := rfl
  unfold Rounds
  rw [← low_interval nonzero, ← high_interval]
  simp only [Interval.holds, closed, beq_iff_eq]
  split
  · rw [Bool.and_eq_true, decide_eq_true_iff, decide_eq_true_iff, div_le_div_iff₀ den unit,
      div_le_div_iff₀ unit den]
    exact_mod_cast Iff.rfl
  · rw [Bool.and_eq_true, decide_eq_true_iff, decide_eq_true_iff, div_lt_div_iff₀ den unit,
      div_lt_div_iff₀ unit den]
    exact_mod_cast Iff.rfl

/-- The power of ten is not above the quotient. -/
theorem zpow_log10Ratio_le {num den : Nat} (positive : 0 < num) (den_pos : 0 < den) :
    (10 : ℚ) ^ log10Ratio num den ≤ num / den := by
  have unit : (0 : ℚ) < den := by exact_mod_cast den_pos
  unfold log10Ratio
  split
  next whole =>
    -- The integer part has as many digits as the power says.
    have length := Nat.length_toDigits_pos (b := 10) (n := num / den)
    generalize digits : (Nat.toDigits 10 (num / den)).length = L at length
    have enough : 10 ^ (L - 1) ≤ num / den := by
      by_cases single : L = 1
      · rw [single]
        exact Nat.div_pos whole den_pos
      · have fewer := (Nat.length_toDigits_le_iff (n := num / den) (k := L - 1) (b := 10)
          (by decide) (by omega)).mpr
        by_contra more
        have := fewer (by omega)
        omega
    have power : (10 : ℚ) ^ ((L : ℤ) - 1) = ((10 ^ (L - 1) : Nat) : ℚ) := by
      rw [show (L : ℤ) - 1 = ((L - 1 : Nat) : ℤ) by omega, zpow_natCast]
      norm_num
    rw [power, le_div_iff₀ unit]
    have product : 10 ^ (L - 1) * den ≤ num :=
      (Nat.mul_le_mul_right den enough).trans (Nat.div_mul_le_self num den)
    exact_mod_cast product
  next part =>
    generalize digits : (Nat.toDigits 10 ((den + num - 1) / num - 1)).length = L
    have length := Nat.length_toDigits_pos (b := 10) (n := (den + num - 1) / num - 1)
    have below := (Nat.length_toDigits_le_iff (n := (den + num - 1) / num - 1) (k := L) (b := 10)
      (by decide) (by omega)).mp (by omega)
    have ceiling : (den + num - 1) / num ≤ 10 ^ L := by omega
    have product : den ≤ num * 10 ^ L := by
      have := Nat.lt_mul_div_succ (den + num - 1) positive
      have := Nat.mul_le_mul_left num ceiling
      rw [Nat.mul_add] at *
      omega
    rw [zpow_neg, zpow_natCast, inv_le_comm₀ (by positivity) (by positivity), inv_div,
      div_le_iff₀ (by exact_mod_cast positive), mul_comm]
    exact_mod_cast product

/-- The neighbour of the number below it on the grid of multiples of `10^e`. -/
def lowerNeighbour (i : Interval) (e : Int) : Nat :=
  i.value * 10 ^ (-e).toNat / (i.den * 10 ^ e.toNat)

/-- Whether `n · 10^e` lies in the interval. -/
def fits (i : Interval) (e : Int) (n : Nat) : Bool :=
  i.holds (n * 10 ^ e.toNat) (10 ^ (-e).toNat)

/-- The first of two numbers that passes a test. -/
def firstOf (test : Nat → Bool) (a b : Nat) : Option Nat :=
  if test a then some a else if test b then some b else none

theorem test_of_firstOf {test : Nat → Bool} {a b n : Nat} (found : firstOf test a b = some n) :
    test n = true := by
  unfold firstOf at found
  split at found
  next yes =>
    obtain rfl := Option.some.inj found
    exact yes
  next =>
    split at found
    next yes =>
      obtain rfl := Option.some.inj found
      exact yes
    next => simp at found

theorem exists_firstOf {test : Nat → Bool} {a b : Nat} (either : test a = true ∨ test b = true) :
    ∃ n, firstOf test a b = some n := by
  unfold firstOf
  split
  next => exact ⟨a, rfl⟩
  next no => exact ⟨b, if_pos (either.resolve_left no)⟩

/-- The search on a grid tests the two neighbours of the number, the nearest first. -/
theorem onGrid?_eq_firstOf (i : Interval) (e : Int) :
    onGrid? i e = firstOf (fits i e) (lowerNeighbour i e) (lowerNeighbour i e + 1) ∨
      onGrid? i e = firstOf (fits i e) (lowerNeighbour i e + 1) (lowerNeighbour i e) := by
  unfold onGrid?
  extract_lets up down num den low fits twice nearest other
  have two : nearest = low ∨ nearest = low + 1 := by
    simp only [nearest]
    split <;> simp
  rcases two with lower | upper
  · left
    simp only [other, lower, if_true]
    rfl
  · right
    have apart : ¬low + 1 = low := by omega
    simp only [other, upper, apart, if_false]
    rfl

theorem fits_of_onGrid? {i : Interval} {e : Int} {n : Nat} (found : onGrid? i e = some n) :
    fits i e n = true := by
  rcases onGrid?_eq_firstOf i e with order | order <;> exact test_of_firstOf (order ▸ found)

theorem fits_interval_iff {x : Binary64} (nonzero : x.isZero = false) {e : Int} {n : Nat} :
    fits (interval x) e n = true ↔ Rounds x (n * (10 : ℚ) ^ e) := by
  rw [fits, holds_interval_iff nonzero (Nat.pow_pos (by decide)),
    zpow_eq_toNat_div (by norm_num : (10 : ℚ) ≠ 0), mul_div_assoc']
  push_cast
  rfl

/-- The number lies between its two neighbours on a grid. -/
theorem lowerNeighbour_bounds (x : Binary64) (e : Int) :
    lowerNeighbour (interval x) e * (10 : ℚ) ^ e ≤ x.significand * 2 ^ x.scale ∧
      x.significand * 2 ^ x.scale < (lowerNeighbour (interval x) e + 1) * (10 : ℚ) ^ e := by
  have up : (0 : ℚ) < 10 ^ (-e).toNat := by positivity
  have den : (0 : ℚ) < (interval x).den := by exact_mod_cast den_interval_pos x
  have positive : 0 < (interval x).den * 10 ^ e.toNat :=
    Nat.mul_pos (den_interval_pos x) (Nat.pow_pos (by decide))
  rw [← value_interval, zpow_eq_toNat_div (by norm_num : (10 : ℚ) ≠ 0), mul_div_assoc',
    mul_div_assoc', div_le_div_iff₀ up den, div_lt_div_iff₀ den up]
  constructor
  · have nat := Nat.div_mul_le_self ((interval x).value * 10 ^ (-e).toNat)
      ((interval x).den * 10 ^ e.toNat)
    have cast : (lowerNeighbour (interval x) e : ℚ) * ((interval x).den * 10 ^ e.toNat) ≤
        (interval x).value * 10 ^ (-e).toNat := by exact_mod_cast nat
    linarith
  · have nat := Nat.lt_mul_div_succ ((interval x).value * 10 ^ (-e).toNat) positive
    have cast : ((interval x).value : ℚ) * 10 ^ (-e).toNat <
        (interval x).den * 10 ^ e.toNat * (lowerNeighbour (interval x) e + 1) := by
      exact_mod_cast nat
    linarith

/-- The grid of seventeen digits is finer than the interval of a number reaches to its longer side,
so one of the two neighbours on it rounds to the number. -/
theorem exists_onGrid? {x : Binary64} (nonzero : x.isZero = false) {top : Int}
    (power : (10 : ℚ) ^ top ≤ x.significand * 2 ^ x.scale) :
    ∃ n, onGrid? (interval x) (top - 16) = some n := by
  generalize grid : top - 16 = e
  have unit : (0 : ℚ) < 2 ^ x.scale := by positivity
  have fine : 10000000000000000 * (10 : ℚ) ^ e ≤ x.significand * 2 ^ x.scale :=
    calc 10000000000000000 * (10 : ℚ) ^ e = 10 ^ (16 + e) := by
          rw [zpow_add₀ (by norm_num)]
          norm_num
      _ = 10 ^ top := by rw [← grid, add_sub_cancel]
      _ ≤ x.significand * 2 ^ x.scale := power
  obtain ⟨below, above⟩ := lowerNeighbour_bounds x e
  have neighbour : fits (interval x) e (lowerNeighbour (interval x) e) = true ∨
      fits (interval x) e (lowerNeighbour (interval x) e + 1) = true := by
    rw [fits_interval_iff nonzero, fits_interval_iff nonzero]
    generalize lowerNeighbour (interval x) e = low at below above
    by_cases first : x.fractionBits = 0 ∧ 1 < x.exponentBits
    · -- Below the first number of a scale the interval is short, so the upper neighbour is taken.
      right
      have significand : (x.significand : ℚ) = 4503599627370496 := by
        have : x.significand = 4503599627370496 := by
          simp only [Binary64.significand, exponentWeight]
          rw [if_neg (by omega), first.1]
        exact_mod_cast this
      have reach : reachBelow x = 1 / 4 := if_pos first
      rw [significand] at below above fine
      apply Rounds.of_inside <;> rw [significand] <;> push_cast
      · rw [reach]
        linarith
      · linarith
    · have reach : reachBelow x = 1 / 2 := if_neg first
      have bound : (x.significand : ℚ) < 9007199254740992 := by exact_mod_cast significand_lt x
      have size := mul_lt_mul_of_pos_right bound unit
      by_cases near : (x.significand : ℚ) * 2 ^ x.scale - low * 10 ^ e < 1 / 2 * 2 ^ x.scale
      · left
        apply Rounds.of_inside
        · rw [reach]
          linarith
        · linarith
      · right
        apply Rounds.of_inside <;> push_cast
        · rw [reach]
          linarith
        · linarith
  rcases onGrid?_eq_firstOf (interval x) e with order | order <;> rw [order]
  · exact exists_firstOf neighbour
  · exact exists_firstOf neighbour.symm

/-- Grid after grid, by induction on the tries that are left: the grid of seventeen digits is the
last that is tried. -/
theorem exists_search {x : Binary64} (nonzero : x.isZero = false) {top : Int}
    (power : (10 : ℚ) ^ top ≤ x.significand * 2 ^ x.scale) (tries k : Nat) (left : 0 < tries)
    (total : tries + k = 18) :
    ∃ n e, search (interval x) top tries k = toDigits n e ∧ onGrid? (interval x) e = some n := by
  induction tries generalizing k with
  | zero => omega
  | succ tries ih =>
    cases found : onGrid? (interval x) (top + 1 - k) with
    | some n => exact ⟨n, top + 1 - k, by simp only [search, found], found⟩
    | none =>
      by_cases last : tries = 0
      · obtain ⟨n, there⟩ := exists_onGrid? nonzero power
        have same : top + 1 - (k : Int) = top - 16 := by omega
        rw [same, there] at found
        cases found
      · obtain ⟨n, e, digits, grid⟩ := ih (k + 1) (by omega) (by omega)
        exact ⟨n, e, by simp only [search, found, digits], grid⟩

end Shortest

/-- The shortest digits round to the number. -/
theorem exists_shortest {x : Binary64} (nonzero : x.isZero = false) :
    ∃ n e, 0 < n ∧ shortest x = Shortest.toDigits n e ∧ Rounds x (n * (10 : ℚ) ^ e) := by
  have den := Shortest.den_interval_pos x
  have positive : 0 < (Shortest.interval x).value := by
    have value := Shortest.value_interval x
    have significand : 0 < x.significand := significand_pos nonzero
    have quotient : (0 : ℚ) < (Shortest.interval x).value / (Shortest.interval x).den := by
      rw [value]
      have : (0 : ℚ) < x.significand := by exact_mod_cast significand
      positivity
    have := (div_pos_iff_of_pos_right (by exact_mod_cast den)).mp quotient
    exact_mod_cast this
  have power := Shortest.zpow_log10Ratio_le positive den
  rw [Shortest.value_interval] at power
  obtain ⟨n, e, digits, grid⟩ := Shortest.exists_search nonzero power 17 1 (by decide) rfl
  have rounds := (Shortest.fits_interval_iff nonzero).mp (Shortest.fits_of_onGrid? grid)
  refine ⟨n, e, ?_, ?_, rounds⟩
  · have product := rounds.pos nonzero
    have : (0 : ℚ) < n := (mul_pos_iff_of_pos_right (by positivity)).mp product
    exact_mod_cast this
  · rw [shortest, nonzero]
    exact digits

end SqlToMongo.Decimal
