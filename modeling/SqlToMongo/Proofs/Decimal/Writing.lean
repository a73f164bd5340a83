import SqlToMongo.Decimal.Numeral
import SqlToMongo.Decimal.Style
import SqlToMongo.Proofs.Decimal.Shortest
import SqlToMongo.Proofs.Json.Grammar
import SqlToMongo.Proofs.Text.Integer

/-!
# Written numbers

A number is written as a text of the JSON grammar that spells a decimal exactly. The decimal is the
one that the shortest digits stand for, so it rounds to the number and to no other. A style that
keeps the point writes no number as an integer.

## Main results

`exists_decimal_write`: what the text of a number spells.
`write_injective`: the text tells the number.
`write_ne_toString`: it is not the text of an integer.
-/

namespace SqlToMongo.Decimal

open Text

/-! ### Spelled decimals -/

/-- The texts of a decimal without a sign. They have a point or an exponent. -/
inductive Spells : ℚ → List Char → Prop where
  | intro {whole fraction exponent : List Char} {z : Int} (isWhole : Json.WholeText whole)
      (isFraction : Json.FractionText fraction) (isExponent : Json.ExponentText exponent)
      (power : markedExponent? exponent = some z) (marked : fraction ++ exponent ≠ []) :
      Spells (Nat.ofDigitChars 10 (whole ++ fraction.tail) 0 * 10 ^ (z - fraction.tail.length))
        (whole ++ fraction ++ exponent)

theorem digits_of_wholeText {whole : List Char} (isWhole : Json.WholeText whole) :
    Json.Digits whole := by
  cases isWhole with
  | zero => exact ⟨by simp, by decide⟩
  | digits digits => exact digits

theorem mantissa?_append {whole fraction : List Char} (isWhole : Json.WholeText whole)
    (isFraction : Json.FractionText fraction) :
    mantissa? (whole ++ fraction) =
      some (Nat.ofDigitChars 10 (whole ++ fraction.tail) 0, fraction.tail.length) := by
  have ⟨nonempty, digits⟩ := digits_of_wholeText isWhole
  cases isFraction with
  | none =>
    obtain ⟨taken, dropped⟩ := takeWhile_run Char.isDigit whole [] digits (by simp)
    rw [mantissa?, taken, dropped]
    simp [digitsValue?_of_digits nonempty digits]
  | @some places isPlaces =>
    obtain ⟨taken, dropped⟩ := takeWhile_run Char.isDigit whole ('.' :: places) digits (by simp)
    have all : places.all Char.isDigit = true := List.all_eq_true.mpr isPlaces.2
    have together : ∀ c ∈ whole ++ places, c.isDigit = true := by
      intro c member
      exact (List.mem_append.mp member).elim (digits c) (isPlaces.2 c)
    rw [mantissa?, taken, dropped]
    simp [all, digitsValue?_of_digits (List.append_ne_nil_of_left_ne_nil nonempty _) together]

theorem isExponentMark_of_isDigit {c : Char} (digit : c.isDigit = true) :
    isExponentMark c = false := by
  have small : c ≠ 'e' := by rintro rfl; exact absurd digit (by decide)
  have large : c ≠ 'E' := by rintro rfl; exact absurd digit (by decide)
  simp [isExponentMark, small, large]

/-- Before the exponent there is no mark of one. -/
theorem cut_exponent {whole fraction exponent : List Char} (isWhole : Json.WholeText whole)
    (isFraction : Json.FractionText fraction) (isExponent : Json.ExponentText exponent) :
    (whole ++ fraction ++ exponent).takeWhile (!isExponentMark ·) = whole ++ fraction ∧
    (whole ++ fraction ++ exponent).dropWhile (!isExponentMark ·) = exponent := by
  apply takeWhile_run
  · intro c member
    rw [Bool.not_eq_true']
    rcases List.mem_append.mp member with inWhole | inFraction
    · exact isExponentMark_of_isDigit ((digits_of_wholeText isWhole).2 c inWhole)
    · cases isFraction with
      | none => simp at inFraction
      | some digits =>
        rcases List.mem_cons.mp inFraction with rfl | inside
        · decide
        · exact isExponentMark_of_isDigit (digits.2 c inside)
  · intro c first
    cases isExponent with
    | none => simp at first
    | some isMark =>
      obtain rfl := Option.some.inj first
      rcases isMark with rfl | rfl <;> decide

namespace Spells

variable {r : ℚ} {s : List Char}

theorem numberText (spells : Spells r s) {sign : List Char} (isSign : sign ∈ [[], ['-']]) :
    Json.NumberText (sign ++ s) := by
  obtain @⟨whole, fraction, exponent, _, isWhole, isFraction, isExponent, _, _⟩ := spells
  have isText := Json.NumberText.intro isSign isWhole isFraction isExponent
  simpa using isText

theorem exists_digit (spells : Spells r s) : ∃ d tail, s = d :: tail ∧ d.isDigit = true := by
  obtain @⟨whole, fraction, exponent, _, isWhole, _, _, _, _⟩ := spells
  obtain ⟨d, tail, rfl, digit⟩ := isWhole.exists_cons
  exact ⟨d, tail ++ fraction ++ exponent, by simp, digit⟩

theorem takeSign (spells : Spells r s) : takeSign s = (false, s) := by
  obtain ⟨d, tail, rfl, digit⟩ := spells.exists_digit
  unfold Text.takeSign
  split
  next shape => cases shape; exact absurd digit (by decide)
  next shape => cases shape; exact absurd digit (by decide)
  next => rfl

/-- The reader of decimals finds the decimal that a text spells. -/
theorem exists_decimal? (spells : Spells r s) (negative : Bool) :
    ∃ n e, decimal? (if negative then '-' :: s else s) = some (negative, n, e) ∧
      (n : ℚ) * 10 ^ e = r := by
  have sign : Text.takeSign (if negative then '-' :: s else s) = (negative, s) := by
    cases negative
    · exact spells.takeSign
    · rfl
  obtain @⟨whole, fraction, exponent, z, isWhole, isFraction, isExponent, power, _⟩ := spells
  obtain ⟨front, back⟩ := cut_exponent isWhole isFraction isExponent
  refine ⟨_, _, ?_, rfl⟩
  simp only [decimal?, sign, front, back, mantissa?_append isWhole isFraction, power]
  rfl

/-- A point or the mark of an exponent tells the text from that of an integer. -/
theorem exists_mark (spells : Spells r s) : ∃ c ∈ s, c = '.' ∨ c = 'e' ∨ c = 'E' := by
  obtain @⟨whole, fraction, exponent, _, _, isFraction, isExponent, _, marked⟩ := spells
  cases isFraction with
  | some => exact ⟨'.', by simp, .inl rfl⟩
  | none =>
    cases isExponent with
    | none => exact absurd rfl marked
    | @some mark _ _ isMark => exact ⟨mark, by simp, .inr isMark⟩

end Spells

/-! ### The digits of a number -/

namespace Digits

/-- The decimal that digits stand for. -/
def value (d : Digits) : ℚ :=
  Nat.ofDigitChars 10 d.digits 0 * 10 ^ (d.point - d.digits.length)

/-- Digits of a number that is not zero, the first of which counts. -/
structure Normal (d : Digits) : Prop where
  digits : Json.Digits d.digits
  first : d.digits.head? ≠ some '0'

end Digits

namespace Shortest

/-- What is cut off the end of the digits are zeros. -/
theorem toDigits_append_zeros (n : Nat) (e : Int) :
    ∃ zeros, Nat.toDigits 10 n = (toDigits n e).digits ++ List.replicate zeros '0' := by
  have zeros : ∀ c ∈ (Nat.toDigits 10 n).reverse.takeWhile (· == '0'), c = '0' := by
    intro c member
    simpa using List.all_eq_true.mp List.all_takeWhile c member
  have split : (Nat.toDigits 10 n).reverse.takeWhile (· == '0') ++
      (Nat.toDigits 10 n).reverse.dropWhile (· == '0') = (Nat.toDigits 10 n).reverse :=
    List.takeWhile_append_dropWhile
  rw [List.eq_replicate_of_mem zeros] at split
  refine ⟨((Nat.toDigits 10 n).reverse.takeWhile (· == '0')).length, ?_⟩
  have reversed := congrArg List.reverse split
  simpa [toDigits] using reversed.symm

theorem normal_toDigits {n : Nat} (positive : 0 < n) (e : Int) : (toDigits n e).Normal := by
  obtain ⟨zeros, whole⟩ := toDigits_append_zeros n e
  have first := head?_toDigits positive
  have digits := isDigit_toDigits n
  rw [whole] at first digits
  have nonempty : (toDigits n e).digits ≠ [] := by
    intro empty
    rw [empty, List.nil_append] at whole first
    cases zeros with
    | zero => exact toDigits_ne_nil n whole
    | succ => exact first rfl
  refine ⟨⟨nonempty, fun c member => digits c (List.mem_append_left _ member)⟩, ?_⟩
  rwa [List.head?_append_of_ne_nil _ nonempty] at first

theorem value_toDigits (n : Nat) (e : Int) : (toDigits n e).value = n * 10 ^ e := by
  obtain ⟨zeros, whole⟩ := toDigits_append_zeros n e
  have number : 10 ^ zeros * Nat.ofDigitChars 10 (toDigits n e).digits 0 = n := by
    rw [← Nat.ofDigitChars_replicate_zero, ← Nat.ofDigitChars_append, ← whole,
      Nat.ofDigitChars_ten_toDigits]
  have cast : (10 : ℚ) ^ zeros * Nat.ofDigitChars 10 (toDigits n e).digits 0 = n := by
    exact_mod_cast number
  have length : ((Nat.toDigits 10 n).length : Int) = (toDigits n e).digits.length + zeros := by
    rw [whole]
    simp
  have point : (toDigits n e).point - (toDigits n e).digits.length = zeros + e := by
    have : (toDigits n e).point = (Nat.toDigits 10 n).length + e := rfl
    omega
  rw [Digits.value, point, zpow_add₀ (by norm_num), zpow_natCast, ← cast]
  ring

end Shortest

namespace NumberStyle

/-! ### Digits with a point -/

variable {d : Digits}

/-- Zeros before and behind the digits do not change the decimal, as long as the point stays where
it is. -/
theorem value_padded {whole fraction : List Char} {before after : Nat}
    (padded : whole ++ fraction =
      List.replicate before '0' ++ (d.digits ++ List.replicate after '0'))
    (places : (fraction.length : Int) = d.digits.length - d.point + after) :
    (Nat.ofDigitChars 10 (whole ++ fraction) 0 : ℚ) * 10 ^ (-(fraction.length : Int)) =
      d.value := by
  have number : Nat.ofDigitChars 10 (whole ++ fraction) 0 =
      10 ^ after * Nat.ofDigitChars 10 d.digits 0 := by
    rw [padded, Nat.ofDigitChars_append, Nat.ofDigitChars_replicate_zero, Nat.mul_zero,
      Nat.ofDigitChars_append, Nat.ofDigitChars_replicate_zero]
  have exponent : d.point - d.digits.length = (after : Int) + -(fraction.length : Int) := by omega
  rw [Digits.value, number, exponent, zpow_add₀ (by norm_num), zpow_natCast]
  push_cast
  ring

theorem spells_padded (normal : d.Normal) {whole fraction : List Char} {before after : Nat}
    (padded : whole ++ fraction =
      List.replicate before '0' ++ (d.digits ++ List.replicate after '0'))
    (places : (fraction.length : Int) = d.digits.length - d.point + after)
    (start : whole = ['0'] ∨ whole ≠ [] ∧ whole.head? ≠ some '0') (nonempty : fraction ≠ []) :
    Spells d.value (whole ++ '.' :: fraction) := by
  have digits : ∀ c ∈ whole ++ fraction, c.isDigit = true := by
    intro c member
    simp only [padded, List.mem_append, List.mem_replicate] at member
    rcases member with ⟨_, rfl⟩ | inside | ⟨_, rfl⟩
    · decide
    · exact normal.digits.2 c inside
    · decide
  have isFraction : Json.Digits fraction :=
    ⟨nonempty, fun c member => digits c (List.mem_append_right _ member)⟩
  have isWhole : Json.WholeText whole := by
    rcases start with rfl | ⟨filled, first⟩
    · exact .zero
    · exact .digits ⟨filled, fun c member => digits c (List.mem_append_left _ member)⟩ first
  have spells := Spells.intro isWhole (.some isFraction) .none rfl (by simp)
  rw [← value_padded padded places]
  simpa using spells

theorem spells_plain (normal : d.Normal) : Spells d.value (plain true d) := by
  have ⟨⟨nonempty, _⟩, first⟩ := normal
  by_cases below : d.point ≤ 0
  · -- All digits stand behind the point, after zeros.
    have shape : plain true d =
        ['0'] ++ '.' :: (List.replicate (-d.point).toNat '0' ++ d.digits) := by
      have none : d.point.toNat = 0 := by omega
      simp [plain, none, nonempty]
    have padded : ['0'] ++ (List.replicate (-d.point).toNat '0' ++ d.digits) =
        List.replicate ((-d.point).toNat + 1) '0' ++ (d.digits ++ List.replicate 0 '0') := by
      simp [List.replicate_succ]
    rw [shape]
    refine spells_padded normal padded ?_ (.inl rfl) (List.append_ne_nil_of_right_ne_nil _ nonempty)
    simp only [List.length_append, List.length_replicate]
    omega
  have nothing : (-d.point).toNat = 0 := by omega
  by_cases inside : d.point.toNat < d.digits.length
  · -- The point stands between two digits.
    have front : d.digits.take d.point.toNat ≠ [] := by
      simp [nonempty]
      omega
    have back : d.digits.drop d.point.toNat ≠ [] := by simpa using inside
    have shape : plain true d =
        d.digits.take d.point.toNat ++ '.' :: d.digits.drop d.point.toNat := by
      have full : d.point.toNat - min d.point.toNat d.digits.length = 0 := by omega
      simp [plain, nothing, full, nonempty, front, back]
    have padded : d.digits.take d.point.toNat ++ d.digits.drop d.point.toNat =
        List.replicate 0 '0' ++ (d.digits ++ List.replicate 0 '0') := by simp
    rw [shape]
    refine spells_padded normal padded ?_ (.inr ⟨front, ?_⟩) back
    · rw [List.length_drop]
      omega
    · rwa [List.head?_take, if_neg (by omega)]
  · -- Zeros fill the places up to the point.
    have shape : plain true d =
        (d.digits ++ List.replicate (d.point.toNat - d.digits.length) '0') ++ '.' :: ['0'] := by
      have all : d.digits.take d.point.toNat = d.digits := List.take_of_length_le (by omega)
      have none : d.digits.drop d.point.toNat = [] := List.drop_of_length_le (by omega)
      simp [plain, all, none, nothing, nonempty]
    have padded : d.digits ++ List.replicate (d.point.toNat - d.digits.length) '0' ++ ['0'] =
        List.replicate 0 '0' ++
          (d.digits ++ List.replicate (d.point.toNat - d.digits.length + 1) '0') := by
      simp [List.replicate_succ']
    rw [shape]
    refine spells_padded normal padded ?_ (.inr ⟨?_, ?_⟩) (by simp)
    · simp only [List.length_singleton]
      omega
    · exact List.append_ne_nil_of_left_ne_nil nonempty _
    · rwa [List.head?_append_of_ne_nil _ nonempty]

/-! ### Digits with an exponent -/

theorem digits_padded (zeros n : Nat) :
    Json.Digits (List.replicate zeros '0' ++ Nat.toDigits 10 n) := by
  refine ⟨List.append_ne_nil_of_right_ne_nil _ (toDigits_ne_nil n), fun c member => ?_⟩
  rcases List.mem_append.mp member with zero | inside
  · rw [List.eq_of_mem_replicate zero]
    rfl
  · exact isDigit_toDigits n c inside

/-- The exponent is read back, whatever zeros stand before its digits. -/
theorem markedExponent?_padded (mark : Char) (z : Int) (zeros : Nat) :
    markedExponent? (mark :: (if z < 0 then '-' else '+') ::
      (List.replicate zeros '0' ++ Nat.toDigits 10 z.natAbs)) = some z := by
  have ⟨nonempty, digits⟩ := digits_padded zeros z.natAbs
  have read : digitsValue? (List.replicate zeros '0' ++ Nat.toDigits 10 z.natAbs) =
      some z.natAbs := by
    rw [digitsValue?_of_digits nonempty digits, Nat.ofDigitChars_append,
      Nat.ofDigitChars_replicate_zero, Nat.mul_zero, Nat.ofDigitChars_ten_toDigits]
  split
  next negative =>
    have magnitude : -(z.natAbs : Int) = z := by omega
    rw [markedExponent?, exponentValue?, read]
    exact congrArg some magnitude
  next =>
    have magnitude : Int.ofNat z.natAbs = z := Int.natAbs_of_nonneg (by omega)
    rw [markedExponent?, exponentValue?, read]
    exact congrArg some magnitude

theorem exponentText_padded {mark : Char} (isMark : mark = 'e' ∨ mark = 'E') (z : Int)
    (zeros : Nat) : Json.ExponentText (mark :: (if z < 0 then '-' else '+') ::
      (List.replicate zeros '0' ++ Nat.toDigits 10 z.natAbs)) := by
  have isSign : [if z < 0 then '-' else '+'] ∈ [[], ['+'], ['-']] := by split <;> simp
  exact .some isMark isSign (digits_padded zeros z.natAbs)

theorem spells_scientific (normal : d.Normal) {mark : Char} (isMark : mark = 'e' ∨ mark = 'E')
    (width : Nat) : Spells d.value (scientific mark width d) := by
  obtain ⟨digits, point⟩ := d
  obtain ⟨⟨nonempty, areDigits⟩, first⟩ := normal
  obtain ⟨c, rest, rfl⟩ := List.exists_cons_of_ne_nil nonempty
  have isWhole : Json.WholeText [c] := by
    refine .digits ⟨by simp, fun d member => ?_⟩ first
    exact areDigits d (by simp [List.mem_singleton.mp member])
  let zeros := width - (Nat.toDigits 10 (point - 1).natAbs).length
  have isExponent := exponentText_padded isMark (point - 1) zeros
  have power := markedExponent?_padded mark (point - 1) zeros
  have value (fraction : List Char) (same : fraction.tail = rest) :
      Digits.value ⟨c :: rest, point⟩ = Nat.ofDigitChars 10 ([c] ++ fraction.tail) 0 *
        10 ^ (point - 1 - fraction.tail.length) := by
    have exponent : point - 1 - (rest.length : Int) = point - ((c :: rest).length : Int) := by
      rw [List.length_cons]
      omega
    rw [same, exponent]
    rfl
  cases rest with
  | nil =>
    have spells := Spells.intro isWhole .none isExponent power (by simp)
    rw [← value [] rfl] at spells
    simpa [scientific] using spells
  | cons next rest =>
    have isFraction : Json.FractionText ('.' :: next :: rest) :=
      .some ⟨by simp, fun d member => areDigits d (List.mem_cons_of_mem c member)⟩
    have spells := Spells.intro isWhole isFraction isExponent power (by simp)
    rw [← value _ rfl] at spells
    simpa [scientific] using spells

/-! ### Numbers -/

/-- Numbers keep a point or have an exponent of the grammar. -/
structure Pointed (style : NumberStyle) : Prop where
  point : style.keepsPoint = true
  mark : style.mark = 'e' ∨ style.mark = 'E'

/-- The text of a number without its sign. -/
def magnitude (style : NumberStyle) (x : Binary64) : List Char :=
  if (shortest x).digits.isEmpty || style.positional ((shortest x).point - 1) then
    plain style.keepsPoint (shortest x)
  else scientific style.mark style.exponentWidth (shortest x)

theorem toList_write (style : NumberStyle) (x : Binary64) :
    (style.write x).toList =
      if x.isNegative then '-' :: magnitude style x else magnitude style x := by
  rw [write, String.toList_ofList]
  rfl

variable {style : NumberStyle} {x y : Binary64}

/-- Zero is spelled as zero, and another number as a decimal that rounds to it. -/
theorem exists_spells (pointed : Pointed style) (x : Binary64) :
    ∃ r, Spells r (magnitude style x) ∧ (x.isZero = true → r = 0) ∧
      (x.isZero = false → Rounds x r) := by
  cases zero : x.isZero with
  | true =>
    have digits : shortest x = ⟨[], 0⟩ := by rw [shortest, if_pos zero]
    have isFraction : Json.FractionText ['.', '0'] := .some ⟨by simp, by decide⟩
    have spells := Spells.intro .zero isFraction .none rfl (by simp)
    have text : magnitude style x = ['0', '.', '0'] := by
      simp [magnitude, digits, plain, pointed.point]
    rw [text]
    exact ⟨_, spells, fun _ => by simp [Nat.ofDigitChars], by simp⟩
  | false =>
    obtain ⟨n, e, positive, digits, rounds⟩ := exists_shortest zero
    have normal := Shortest.normal_toDigits positive e
    rw [← digits] at normal
    have value : (shortest x).value = n * 10 ^ e := by rw [digits, Shortest.value_toDigits]
    refine ⟨n * 10 ^ e, ?_, by simp, fun _ => rounds⟩
    rw [magnitude, pointed.point, ← value]
    split
    · exact spells_plain normal
    · exact spells_scientific normal pointed.mark _

theorem numberText_write (pointed : Pointed style) (x : Binary64) :
    Json.NumberText (style.write x).toList := by
  obtain ⟨r, spells, -⟩ := exists_spells pointed x
  rw [toList_write]
  split
  · have minus : ['-'] ∈ [[], ['-']] := by simp
    exact spells.numberText minus
  · have unsigned : [] ∈ [[], ['-']] := by simp
    exact spells.numberText unsigned

/-- The reader of decimals finds the sign of a number, and zero or a decimal that rounds to it. -/
theorem exists_decimal_write (pointed : Pointed style) (x : Binary64) :
    ∃ n e, decimal? (style.write x).toList = some (x.isNegative, n, e) ∧
      (x.isZero = true → (n : ℚ) * 10 ^ e = 0) ∧ (x.isZero = false → Rounds x (n * 10 ^ e)) := by
  obtain ⟨r, spells, zero, rounds⟩ := exists_spells pointed x
  obtain ⟨n, e, read, rfl⟩ := spells.exists_decimal? x.isNegative
  rw [← toList_write] at read
  exact ⟨n, e, read, zero, rounds⟩

/-- The text tells the number. -/
theorem write_injective (pointed : Pointed style) (same : style.write x = style.write y) :
    x = y := by
  obtain ⟨n, e, first, zero, rounds⟩ := exists_decimal_write pointed x
  obtain ⟨n', e', second, zero', rounds'⟩ := exists_decimal_write pointed y
  rw [same, second] at first
  obtain ⟨sign, rfl, rfl⟩ : y.isNegative = x.isNegative ∧ n' = n ∧ e' = e := by simpa using first
  cases isZero : x.isZero <;> cases isZero' : y.isZero
  · -- One decimal rounds to both.
    have parts := (rounds isZero).unique (rounds' isZero')
    exact Binary64.eq_of_parts sign.symm parts.1 parts.2
  · exact absurd (zero' isZero') ((rounds isZero).pos isZero).ne'
  · exact absurd (zero isZero) ((rounds' isZero').pos isZero').ne'
  · exact Binary64.eq_of_isZero sign.symm isZero isZero'

theorem write_ne_toString (pointed : Pointed style) (x : Binary64) (z : Int) :
    style.write x ≠ toString z := by
  intro same
  obtain ⟨r, spells, -⟩ := exists_spells pointed x
  obtain ⟨c, member, mark⟩ := spells.exists_mark
  have inside : c ∈ (style.write x).toList := by
    rw [toList_write]
    split <;> simp [member]
  rw [same] at inside
  have signOrDigit := eq_minus_or_isDigit inside
  rcases mark with rfl | rfl | rfl <;> exact absurd signOrDigit (by decide)

end NumberStyle

end SqlToMongo.Decimal
