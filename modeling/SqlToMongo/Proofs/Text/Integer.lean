import Mathlib.Data.List.Basic
import SqlToMongo.Text.Split

/-!
# Integers as text

An integer is written with digits only, without a zero in front, and after a minus when it is
negative. The reader of integers finds it again as long as it has 64 bits.

## Main result

`int64?_toString`: an integer of 64 bits is read from its text.
-/

namespace SqlToMongo.Text

/-! ### Numbers -/

theorem toDigits_ne_nil (n : Nat) : Nat.toDigits 10 n ≠ [] := by
  by_cases small : n < 10
  · rw [Nat.toDigits_of_lt_base small]
    exact List.cons_ne_nil _ _
  · rw [Nat.toDigits_of_base_le (by decide) (Nat.not_lt.mp small)]
    exact List.append_ne_nil_of_right_ne_nil _ (List.cons_ne_nil _ _)

theorem isDigit_toDigits (n : Nat) : ∀ c ∈ Nat.toDigits 10 n, c.isDigit = true :=
  fun _ member => Nat.isDigit_of_mem_toDigits (by decide) (by decide) member

/-- The digits of a positive number do not start with a zero. -/
theorem head?_toDigits {n : Nat} (positive : 0 < n) : (Nat.toDigits 10 n).head? ≠ some '0' := by
  induction n using Nat.strongRecOn with
  | ind n ih =>
    by_cases small : n < 10
    · have notZero : ∀ d < 10, 0 < d → Nat.digitChar d ≠ '0' := by decide
      rw [Nat.toDigits_of_lt_base small]
      exact fun zero => notZero n small positive (Option.some.inj zero)
    · have large := Nat.not_lt.mp small
      rw [Nat.toDigits_of_base_le (by decide) large,
        List.head?_append_of_ne_nil _ (toDigits_ne_nil (n / 10))]
      exact ih (n / 10) (by omega) (by omega)

/-- A run of digits is read as the number it spells. -/
theorem digitsValue?_of_digits {ds : List Char} (nonempty : ds ≠ [])
    (digits : ∀ c ∈ ds, c.isDigit = true) : digitsValue? ds = some (Nat.ofDigitChars 10 ds 0) := by
  rw [digitsValue?, if_neg (by simpa using nonempty), Nat.ofDigitChars]
  -- Both readers fold the digits from the front, so they agree from any number on.
  clear nonempty
  generalize 0 = n
  induction ds generalizing n with
  | nil => rfl
  | cons c ds ih =>
    have digit := digits c (by simp)
    rw [List.foldlM_cons, List.foldl_cons, if_pos digit]
    exact ih (fun d member => digits d (List.mem_cons_of_mem c member)) _

theorem digitsValue?_toDigits (n : Nat) : digitsValue? (Nat.toDigits 10 n) = some n := by
  rw [digitsValue?_of_digits (toDigits_ne_nil n) (isDigit_toDigits n),
    Nat.ofDigitChars_ten_toDigits]

/-! ### Integers -/

theorem toList_toString_ofNat (n : Nat) : (toString (Int.ofNat n)).toList = Nat.toDigits 10 n := by
  rw [show toString (Int.ofNat n) = Nat.repr n from rfl, Nat.repr, String.toList_ofList]

theorem toList_toString_negSucc (n : Nat) :
    (toString (Int.negSucc n)).toList = '-' :: Nat.toDigits 10 (n + 1) := by
  rw [show toString (Int.negSucc n) = "-" ++ Nat.repr (n + 1) from rfl, Nat.repr]
  simp

theorem eq_minus_or_isDigit {z : Int} {c : Char} (member : c ∈ (toString z).toList) :
    c = '-' ∨ c.isDigit = true := by
  cases z with
  | ofNat n =>
    rw [toList_toString_ofNat] at member
    exact .inr (isDigit_toDigits n c member)
  | negSucc n =>
    rw [toList_toString_negSucc] at member
    exact (List.mem_cons.mp member).imp_right (isDigit_toDigits _ c)

theorem takeSign_toDigits (n : Nat) :
    takeSign (Nat.toDigits 10 n) = (false, Nat.toDigits 10 n) := by
  have digits := isDigit_toDigits n
  unfold takeSign
  split
  next shape => exact absurd (digits '-' (by simp [shape])) (by decide)
  next shape => exact absurd (digits '+' (by simp [shape])) (by decide)
  next => rfl

theorem int64?_of_sign {s ds : List Char} {negative : Bool} {n : Nat} {z : Int}
    (sign : takeSign s = (negative, ds)) (value : digitsValue? ds = some n)
    (same : (if negative then -(n : Int) else n) = z) (fits : Decimal.fitsInt64 z = true) :
    int64? s = some z := by
  rw [int64?, sign]
  simp only [value, Option.bind_eq_bind, Option.bind_some, same, fits, if_true]

/-- An integer of 64 bits is read from its text. -/
theorem int64?_toString {z : Int} (fits : Decimal.fitsInt64 z = true) :
    int64? (toString z).toList = some z := by
  cases z with
  | ofNat n =>
    rw [toList_toString_ofNat]
    exact int64?_of_sign (takeSign_toDigits n) (digitsValue?_toDigits n) rfl fits
  | negSucc n =>
    have minus : takeSign ('-' :: Nat.toDigits 10 (n + 1)) = (true, Nat.toDigits 10 (n + 1)) := rfl
    rw [toList_toString_negSucc]
    exact int64?_of_sign minus (digitsValue?_toDigits (n + 1)) rfl fits

end SqlToMongo.Text
