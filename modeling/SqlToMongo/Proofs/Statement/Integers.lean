import SqlToMongo.Proofs.Decimal.Binary64
import SqlToMongo.Proofs.Statement.Items
import SqlToMongo.Proofs.Statement.Select
import SqlToMongo.Proofs.Text.Integer

/-!
# Integers in statements

Digits are read in two places. As a literal they are an integer as long as it has 64 bits; beyond
that they are a number with a fraction, and beyond the greatest of these a name. As a count of a
SELECT they are an integer of 64 bits, or the statement is malformed. Neither reader wraps, whatever
the number of digits.

## Main result

`integers_are_exact`: what digits become as a literal, and as a LIMIT or an OFFSET.
-/

namespace SqlToMongo.Sql

open Decimal Mongo Text

/-! ### Literals of digits -/

/-- Digits, at least one. -/
def IsNumber (digits : List Char) : Prop :=
  digits ≠ [] ∧ ∀ c ∈ digits, c.isDigit = true

instance (digits : List Char) : Decidable (IsNumber digits) :=
  inferInstanceAs (Decidable (digits ≠ [] ∧ ∀ c ∈ digits, c.isDigit = true))

/-- The number that digits spell. -/
def numberOf (digits : List Char) : Nat :=
  Nat.ofDigitChars 10 digits 0

theorem natOf_eq_numberOf (digits : List Char) : Numeral.natOf digits = numberOf digits := rfl

inductive Sign where
  | none
  | plus
  | minus
  deriving DecidableEq, Repr

def Sign.chars : Sign → List Char
  | none => []
  | plus => ['+']
  | minus => ['-']

/-- An optional sign, then any number of digits, but at least one. -/
structure IntegerText where
  sign : Sign
  digits : List Char
  number : IsNumber digits := by decide +kernel

theorem fitsInt64_iff {z : Int} : fitsInt64 z = true ↔ -2 ^ 63 ≤ z ∧ z < 2 ^ 63 := by
  rw [fitsInt64, Bool.and_eq_true, decide_eq_true_eq, decide_eq_true_eq]
  rfl

theorem visible_of_isDigit {c : Char} (digit : c.isDigit = true) :
    isBlank c = false ∧ isQuote c = false ∧ lower c = c := by
  have range : 48 ≤ c.toNat ∧ c.toNat ≤ 57 := by
    simp only [Char.isDigit, Bool.and_eq_true, decide_eq_true_eq] at digit
    exact digit
  refine ⟨?_, ?_, ?_⟩
  · simp only [isBlank, Bool.or_eq_false_iff, Bool.and_eq_false_iff, decide_eq_false_iff_not,
      beq_eq_false_iff_ne]
    omega
  · have notQuote (q : Char) (other : q.isDigit = false) : c ≠ q := by
      rintro rfl
      simp [digit] at other
    simp [isQuote, notQuote '\'' rfl, notQuote '"' rfl]
  · have small : ¬(c.val ≥ 'A'.val ∧ c.val ≤ 'Z'.val) := by
      rintro ⟨capital, -⟩
      exact absurd (show 65 ≤ c.toNat from capital) (by omega)
    rw [lower, if_pos (by omega)]
    exact dif_neg small

namespace IntegerText

variable (t : IntegerText)

def chars : List Char := t.sign.chars ++ t.digits

def magnitude : Nat := numberOf t.digits

/-- The integer that the text spells. -/
def value : Int :=
  if t.sign = .minus then -(t.magnitude : Int) else t.magnitude

theorem exists_cons : ∃ d rest, t.digits = d :: rest ∧ d.isDigit = true := by
  obtain ⟨d, rest, shape⟩ := List.exists_cons_of_ne_nil t.number.1
  exact ⟨d, rest, shape, t.number.2 d (by simp [shape])⟩

theorem visible_chars : ∀ c ∈ t.chars, isBlank c = false ∧ isQuote c = false := by
  intro c member
  rcases List.mem_append.mp member with sign | digit
  · revert sign
    cases t.sign <;> simp [Sign.chars] <;> rintro rfl <;> decide
  · obtain ⟨visible, unquoted, -⟩ := visible_of_isDigit (t.number.2 c digit)
    exact ⟨visible, unquoted⟩

theorem trim_chars : trim t.chars = t.chars :=
  trim_eq_self (fun c first => (t.visible_chars c (List.mem_of_head? first)).1)
    (fun c last => (t.visible_chars c (List.mem_of_getLast? last)).1)

theorem quoted?_chars : quoted? t.chars = none := by
  have unquoted := t.visible_chars
  cases shape : t.chars with
  | nil => rfl
  | cons c rest => simp [quoted?, (unquoted c (by simp [shape])).2]

theorem read?_chars :
    Numeral.read? t.chars = some ⟨t.sign = .minus, t.digits, [], false⟩ := by
  obtain ⟨taken, dropped⟩ := takeWhile_run Char.isDigit t.digits [] t.number.2 (by simp)
  rw [List.append_nil] at taken dropped
  have nonempty := t.number.1
  unfold chars
  cases t.sign with
  | plus | minus => simp [Sign.chars, Numeral.read?, taken, dropped, nonempty]
  | none =>
    -- Without a sign the reader must not take the first digit for one.
    obtain ⟨d, rest, shape, digit⟩ := t.exists_cons
    have notMinus : d ≠ '-' := by rintro rfl; exact absurd digit (by decide)
    have notPlus : d ≠ '+' := by rintro rfl; exact absurd digit (by decide)
    rw [shape] at taken dropped
    simp [Sign.chars, Numeral.read?, shape, notMinus, notPlus, taken, dropped]

/-- Truth values and null have no digits. -/
theorem ofName_chars : Literal.ofName t.chars = .reference (String.ofList t.chars) := by
  obtain ⟨d, rest, shape, digit⟩ := t.exists_cons
  have kept : d ∈ lowerAll t.chars := by
    rw [lowerAll, List.mem_map]
    exact ⟨d, by simp [chars, shape], (visible_of_isDigit digit).2.2⟩
  have different {name : String} (lettered : ∀ c ∈ name.toList, c.isDigit = false) :
      String.ofList (lowerAll t.chars) ≠ name := by
    rintro rfl
    rw [String.toList_ofList] at lettered
    simp [lettered d kept] at digit
  unfold Literal.ofName
  split
  next same => exact absurd same (different (by decide))
  next same => exact absurd same (different (by decide))
  next same => exact absurd same (different (by decide))
  next => rfl

/-- An integer that fits is exact; for another the number with a fraction or the name is left. -/
theorem classify_chars {before after : List Char} (blanksBefore : ∀ c ∈ before, isBlank c = true)
    (blanksAfter : ∀ c ∈ after, isBlank c = true) :
    Literal.classify (before ++ t.chars ++ after) =
      if fitsInt64 t.value then .int t.value
      else ((Binary64.ofDecimal? (t.sign = .minus) t.magnitude 0).map .float).getD
        (.reference (String.ofList t.chars)) := by
  have trimmed : trim (before ++ t.chars ++ after) = t.chars := by
    rw [trim_append_blanks blanksAfter, trim_blanks_append blanksBefore, trim_chars]
  have integer : Numeral.toInt ⟨t.sign = .minus, t.digits, [], false⟩ = t.value := by
    simp only [Numeral.toInt, natOf_eq_numberOf, value, magnitude, decide_eq_true_eq]
  have float : Numeral.toFloat? ⟨t.sign = .minus, t.digits, [], false⟩ =
      Binary64.ofDecimal? (t.sign = .minus) t.magnitude 0 := by
    simp [Numeral.toFloat?, natOf_eq_numberOf, magnitude]
  simp only [Literal.classify, trimmed, quoted?_chars, read?_chars, ofName_chars, Option.bind_some,
    Literal.ofNumeral?, integer, float, Bool.not_false, Bool.true_and]
  split <;> rfl

/-- What the text is as a literal: the integer that it spells when that has 64 bits; otherwise the
number nearest to it, and a name when it is too large for that. -/
structure Denotes (literal : Literal) : Prop where
  int : -2 ^ 63 ≤ t.value ∧ t.value < 2 ^ 63 → literal = .int t.value
  float : ¬(-2 ^ 63 ≤ t.value ∧ t.value < 2 ^ 63) → t.magnitude < 2 ^ 1024 - 2 ^ 970 →
    ∃ x, Binary64.ofDecimal? (t.sign = .minus) t.magnitude 0 = some x ∧ literal = .float x
  reference : ¬(-2 ^ 63 ≤ t.value ∧ t.value < 2 ^ 63) → 2 ^ 1024 - 2 ^ 970 ≤ t.magnitude →
    literal = .reference (String.ofList t.chars)

theorem denotes_classify {before after : List Char} (blanksBefore : ∀ c ∈ before, isBlank c = true)
    (blanksAfter : ∀ c ∈ after, isBlank c = true) :
    t.Denotes (Literal.classify (before ++ t.chars ++ after)) := by
  rw [t.classify_chars blanksBefore blanksAfter]
  -- The size of the magnitude alone tells whether a number with a fraction is left.
  refine ⟨fun fits => ?_, fun unfit small => ?_, fun unfit large => ?_⟩
  · rw [if_pos (fitsInt64_iff.mpr fits)]
  · have rounded : Binary64.ofDecimal? (t.sign = .minus) t.magnitude 0 ≠ none :=
      fun none => Nat.not_le.mpr small (Binary64.ofDecimal?_eq_none_iff.mp none)
    obtain ⟨x, float⟩ := Option.ne_none_iff_exists'.mp rounded
    refine ⟨x, float, ?_⟩
    rw [if_neg (fitsInt64_iff.not.mpr unfit), float]
    rfl
  · rw [if_neg (fitsInt64_iff.not.mpr unfit), Binary64.ofDecimal?_eq_none_iff.mpr large]
    rfl

/-- The text that an integer is written as. -/
def ofInt (z : Int) : IntegerText where
  sign := if z < 0 then .minus else .none
  digits := Nat.toDigits 10 z.natAbs
  number := ⟨toDigits_ne_nil _, isDigit_toDigits _⟩

theorem chars_ofInt (z : Int) : (ofInt z).chars = (toString z).toList := by
  cases z with
  | ofNat n =>
    have sign : ¬Int.ofNat n < 0 := Int.not_lt.mpr (Int.natCast_nonneg n)
    rw [toList_toString_ofNat, chars, ofInt, if_neg sign]
    rfl
  | negSucc n =>
    rw [toList_toString_negSucc, chars, ofInt, if_pos (Int.negSucc_lt_zero n)]
    rfl

theorem value_ofInt (z : Int) : (ofInt z).value = z := by
  have magnitude : (ofInt z).magnitude = z.natAbs := Nat.ofDigitChars_ten_toDigits
  have sign : (ofInt z).sign = .minus ↔ z < 0 := by simp [ofInt]
  rw [value, magnitude]
  simp only [sign]
  omega

end IntegerText

end SqlToMongo.Sql

namespace SqlToMongo.Statement

open Mongo Sql Text

/-! ### The digits of a SELECT -/

namespace Counts

/-- The digits that stand in a statement. -/
def texts (n : Counts) : List (List Char) :=
  n.limit.toList ++ n.skip.toList ++ n.offset.toList

/-- The digits of the documents to skip: an OFFSET counts before the second number of a LIMIT. -/
def skipped (n : Counts) : Option (List Char) :=
  n.offset <|> n.skip

/-- The texts of a LIMIT and its second number. -/
inductive LimitSpelled : Option (List Char) → Option (List Char) → List Char → Prop where
  | missing : LimitSpelled none none []
  | single {o n : List Char} : Opening ["limit"] o → IsNumber n →
      LimitSpelled (some n) none (o ++ n)
  | pair {o n before after m : List Char} : Opening ["limit"] o → IsNumber n →
      (∀ c ∈ before, isGap c = true) → (∀ c ∈ after, isGap c = true) → IsNumber m →
      LimitSpelled (some n) (some m) (o ++ n ++ before ++ ',' :: after ++ m)

inductive OffsetSpelled : Option (List Char) → List Char → Prop where
  | missing : OffsetSpelled none []
  | present {o n : List Char} : Opening ["offset"] o → IsNumber n →
      OffsetSpelled (some n) (o ++ n)

/-- The texts that a statement with these digits ends in. -/
inductive Spelled (n : Counts) : List Char → Prop where
  | parts {limit offset : List Char} : LimitSpelled n.limit n.skip limit →
      OffsetSpelled n.offset offset → Spelled n (limit ++ offset)

theorem number_of_run? {s digits rest : List Char}
    (found : run? Char.isDigit s = some (digits, rest)) : s = digits ++ rest ∧ IsNumber digits := by
  obtain ⟨same, nonempty, decimal, -⟩ := run?_eq_some_iff.mp found
  exact ⟨same, nonempty, decimal⟩

theorem spelled_of_offset? {s : List Char} {offset : Option (List Char)}
    (found : offset? s = some offset) : OffsetSpelled offset s := by
  unfold offset? at found
  split at found
  next body opened =>
    obtain ⟨o, opening, rfl, -⟩ := (keywords?_eq_some_iff (by decide)).mp opened
    split at found
    next digits run =>
      obtain ⟨rfl, number⟩ := number_of_run? run
      obtain rfl := Option.some.inj found
      simpa using OffsetSpelled.present opening number
    next => cases found
  next =>
    obtain ⟨empty, rfl⟩ := (Option.ite_none_right_eq_some.mp found).imp_right Option.some.inj
    rw [List.isEmpty_iff.mp empty]
    exact .missing

theorem exists_of_skip? {s digits rest : List Char} (found : skip? s = some (digits, rest)) :
    ∃ before after, (∀ c ∈ before, isGap c = true) ∧ (∀ c ∈ after, isGap c = true) ∧
      IsNumber digits ∧ s = before ++ ',' :: after ++ digits ++ rest := by
  unfold skip? at found
  split at found
  next behind comma =>
    obtain ⟨same, number⟩ := number_of_run? found
    refine ⟨s.takeWhile isGap, behind.takeWhile isGap, List.all_eq_true.mp List.all_takeWhile,
      List.all_eq_true.mp List.all_takeWhile, number, ?_⟩
    calc s = s.takeWhile isGap ++ s.dropWhile isGap := List.takeWhile_append_dropWhile.symm
      _ = s.takeWhile isGap ++ ',' :: (behind.takeWhile isGap ++ behind.dropWhile isGap) := by
        rw [comma, List.takeWhile_append_dropWhile]
      _ = s.takeWhile isGap ++ ',' :: behind.takeWhile isGap ++ digits ++ rest := by
        simp [same]
  next => cases found

theorem spelled_of_read? {s : List Char} {n : Counts} (found : read? s = some n) :
    n.Spelled s := by
  unfold read? at found
  split at found
  next body opened =>
    obtain ⟨o, opening, rfl, -⟩ := (keywords?_eq_some_iff (by decide)).mp opened
    simp only [Option.bind_eq_bind, Option.bind_eq_some_iff] at found
    obtain ⟨⟨limit, after⟩, run, found⟩ := found
    obtain ⟨rfl, number⟩ := number_of_run? run
    -- With a second number the OFFSET is read behind it, else behind the first.
    split at found
    next skip rest second =>
      obtain ⟨offset, ending, rfl⟩ := Option.map_eq_some_iff.mp found
      obtain ⟨before, behind, gapsBefore, gapsAfter, numberSkip, rfl⟩ := exists_of_skip? second
      have whole := Spelled.parts (n := ⟨some limit, some skip, offset⟩)
        (.pair opening number gapsBefore gapsAfter numberSkip) (spelled_of_offset? ending)
      simpa using whole
    next =>
      obtain ⟨offset, ending, rfl⟩ := Option.map_eq_some_iff.mp found
      have whole := Spelled.parts (n := ⟨some limit, none, offset⟩)
        (.single opening number) (spelled_of_offset? ending)
      simpa using whole
  next =>
    obtain ⟨offset, ending, rfl⟩ := Option.map_eq_some_iff.mp found
    exact .parts (n := ⟨none, none, offset⟩) .missing (spelled_of_offset? ending)

end Counts

/-- What is read behind an optional clause is read from the end of the text. -/
theorem isSuffix_of_optionalClause? {α : Type} {next? : List Char → Option α} {ks : List String}
    (lettered : ∀ k ∈ ks, isLettered k = true) {s clause : List Char} {a : α}
    (found : optionalClause? ks next? s = some (clause, a)) :
    ∃ rest, rest <:+ s ∧ next? rest = some a := by
  unfold optionalClause? at found
  split at found
  next body opened =>
    obtain ⟨o, -, rfl, -⟩ := (keywords?_eq_some_iff lettered).mp opened
    obtain ⟨rest, rfl, accepted, -⟩ := cutBefore?_eq_some_iff.mp found
    exact ⟨rest, ⟨o ++ clause, by simp⟩, accepted⟩
  next =>
    obtain ⟨b, accepted, same⟩ := Option.map_eq_some_iff.mp found
    obtain ⟨-, rfl⟩ := Prod.mk.inj same
    exact ⟨s, List.suffix_rfl, accepted⟩

namespace SelectClauses

theorem exists_tail_of_tail? {s condition grouping having ordering : List Char} {n : Counts}
    (found : tail? s = some (condition, grouping, having, ordering, n)) :
    ∃ tail, tail <:+ s ∧ n.Spelled tail := by
  obtain ⟨s₁, suffix₁, found⟩ := isSuffix_of_optionalClause? (by decide) found
  obtain ⟨s₂, suffix₂, found⟩ := isSuffix_of_optionalClause? (by decide) found
  obtain ⟨s₃, suffix₃, found⟩ := isSuffix_of_optionalClause? (by decide) found
  obtain ⟨s₄, suffix₄, found⟩ := isSuffix_of_optionalClause? (by decide) found
  exact ⟨s₄, ((suffix₄.trans suffix₃).trans suffix₂).trans suffix₁, Counts.spelled_of_read? found⟩

theorem exists_tail_of_source? {s name condition grouping having ordering : List Char} {n : Counts}
    (found : source? s = some (name, condition, grouping, having, ordering, n)) :
    ∃ tail, tail <:+ s.tail ∧ n.Spelled tail := by
  simp only [source?, Option.bind_eq_bind, Option.bind_eq_some_iff, Option.pure_def,
    Option.some.injEq, Prod.mk.injEq] at found
  obtain ⟨body, opened, ⟨collection, after⟩, run, clauses, found, rfl, rfl⟩ := found
  obtain ⟨o, opening, rfl, -⟩ := (keywords?_eq_some_iff (by decide)).mp opened
  obtain ⟨rfl, -⟩ := run?_eq_some_iff.mp run
  obtain ⟨d, o, rfl, -⟩ := opening.head_isGap
  obtain ⟨tail, suffix, spelled⟩ := exists_tail_of_tail? found
  exact ⟨tail, suffix.trans ⟨o ++ collection, by simp⟩, spelled⟩

/-- The digits of a SELECT are those that it ends in. -/
theorem exists_tail_of_read? {s : List Char} {c : SelectClauses} (found : read? s = some c) :
    ∃ front tail, s = front ++ tail ∧ c.counts.Spelled tail := by
  suffices ∃ tail, tail <:+ s ∧ c.counts.Spelled tail by
    obtain ⟨tail, ⟨front, whole⟩, spelled⟩ := this
    exact ⟨front, tail, whole.symm, spelled⟩
  simp only [read?, Option.bind_eq_bind, Option.bind_eq_some_iff, Option.pure_def,
    Option.some.injEq] at found
  obtain ⟨start, select, body, gap, ⟨fields, name, condition, grouping, having, ordering, n⟩,
    found, rfl⟩ := found
  obtain ⟨word, -, rfl⟩ := keyword?_eq_some_iff.mp select
  obtain ⟨g, -, rfl, -⟩ := gap?_eq_some_iff.mp gap
  have inside : body <:+ word ++ (g ++ body) := ⟨word ++ g, by simp⟩
  rw [Option.orElse_eq_some] at found
  rcases found with cut | ⟨-, empty⟩
  · obtain ⟨rest, rfl, accepted, -⟩ := cutBefore?_eq_some_iff.mp cut
    obtain ⟨tail, suffix, spelled⟩ := exists_tail_of_source? accepted
    have behind : rest <:+ fields ++ rest := List.suffix_append fields rest
    exact ⟨tail, ((suffix.trans (List.tail_suffix rest)).trans behind).trans inside, spelled⟩
  · -- The gap that is put before FROM is no part of the ending.
    obtain ⟨clauses, accepted, same⟩ := Option.map_eq_some_iff.mp empty
    obtain ⟨-, rfl⟩ := Prod.mk.inj same
    obtain ⟨-, accepted⟩ := Option.ite_none_right_eq_some.mp accepted
    obtain ⟨tail, suffix, spelled⟩ := exists_tail_of_source? accepted
    exact ⟨tail, suffix.trans inside, spelled⟩

end SelectClauses

/-! ### The numbers of a command -/

/-- Digits are their number, or the statement is malformed and the error names them. -/
theorem readCount_eq (digits : List Char) :
    readCount digits = if numberOf digits < 2 ^ 63 then .ok (numberOf digits : Int)
      else .error (.malformed .select (some (.countOutOfRange (String.ofList digits)))) := by
  have fits : Decimal.fitsInt64 (numberOf digits) = true ↔ numberOf digits < 2 ^ 63 := by
    rw [fitsInt64_iff]
    omega
  simp only [readCount, natOf_eq_numberOf, fits]

theorem mapM_readCount_cases (n : Option (List Char)) :
    (∃ digits ∈ n.toList, 2 ^ 63 ≤ numberOf digits ∧ n.mapM readCount =
      .error (.malformed .select (some (.countOutOfRange (String.ofList digits))))) ∨
    ((∀ digits ∈ n.toList, numberOf digits < 2 ^ 63) ∧
      n.mapM readCount = .ok (n.map fun digits => (numberOf digits : Int))) := by
  cases n with
  | none => exact .inr ⟨by simp, rfl⟩
  | some digits =>
    rw [Option.mapM_some, readCount_eq]
    by_cases small : numberOf digits < 2 ^ 63
    · exact .inr ⟨by simpa using small, by rw [if_pos small]; rfl⟩
    · exact .inl ⟨digits, by simp, Nat.not_lt.mp small, by rw [if_neg small]; rfl⟩

/-- The command of the clauses with the numbers that their digits spell. -/
def SelectClauses.command (c : SelectClauses) : Command :=
  let limit := c.counts.limit.map fun digits => (numberOf digits : Int)
  let skip := c.counts.skipped.map fun digits => (numberOf digits : Int)
  if c.grouping.isEmpty then findCommand c limit skip else aggregateCommand c limit skip

/-- Some digits are too large and the error names them, or all become numbers of the command. -/
theorem compileSelect_cases {s : List Char} {c : SelectClauses}
    (found : SelectClauses.read? s = some c) :
    (∃ digits ∈ c.counts.texts, 2 ^ 63 ≤ numberOf digits ∧ compileSelect s =
      .error (.malformed .select (some (.countOutOfRange (String.ofList digits))))) ∨
    ((∀ digits ∈ c.counts.texts, numberOf digits < 2 ^ 63) ∧ compileSelect s = .ok c.command) := by
  have among {digits : List Char} : digits ∈ c.counts.texts ↔ digits ∈ c.counts.limit.toList ∨
      digits ∈ c.counts.skip.toList ∨ digits ∈ c.counts.offset.toList := by
    simp [Counts.texts]
  simp only [compileSelect, found, among]
  -- Digits are read in the order of the text, and the first that are too large end the reading.
  rcases mapM_readCount_cases c.counts.limit with
    ⟨digits, member, large, failed⟩ | ⟨smallLimit, limit⟩
  · exact .inl ⟨digits, .inl member, large, by rw [failed]; rfl⟩
  rcases mapM_readCount_cases c.counts.skip with
    ⟨digits, member, large, failed⟩ | ⟨smallSkip, skip⟩
  · exact .inl ⟨digits, .inr (.inl member), large, by rw [limit, failed]; rfl⟩
  rcases mapM_readCount_cases c.counts.offset with
    ⟨digits, member, large, failed⟩ | ⟨smallOffset, offset⟩
  · exact .inl ⟨digits, .inr (.inr member), large, by rw [limit, skip, failed]; rfl⟩
  refine .inr ⟨?_, ?_⟩
  · rintro digits (member | member | member)
    · exact smallLimit digits member
    · exact smallSkip digits member
    · exact smallOffset digits member
  · rw [limit, skip, offset, SelectClauses.command, Counts.skipped]
    cases c.counts.offset <;> rfl

end SqlToMongo.Statement

namespace SqlToMongo.Mongo

/-- The number of a limit. -/
def Stage.limit? : Stage → Option Int
  | .limit n => some n
  | _ => none

/-- The number of a skip. -/
def Stage.skip? : Stage → Option Int
  | .skip n => some n
  | _ => none

/-- Every limit that a command has. -/
def Command.limits : Command → List Int
  | .find query => query.limit.toList
  | .aggregate _ pipeline => pipeline.filterMap Stage.limit?
  | _ => []

/-- Every skip that a command has. -/
def Command.skips : Command → List Int
  | .find query => query.skip.toList
  | .aggregate _ pipeline => pipeline.filterMap Stage.skip?
  | _ => []

end SqlToMongo.Mongo

namespace SqlToMongo.Statement

open Mongo Sql Text

/-- Of the stages of a pipeline the last two count documents. -/
theorem exists_front (c : SelectClauses) (limit skip : Option Int) :
    ∃ front, (∀ stage ∈ front, stage.limit? = none ∧ stage.skip? = none) ∧
      aggregateCommand c limit skip = .aggregate (String.ofList c.collection)
        (front ++ (skip.map Stage.skip).toList ++ (limit.map Stage.limit).toList) := by
  refine ⟨_, ?_, rfl⟩
  have optional {p : Prop} [Decidable p] {s stage : Stage} (plain : s.limit? = none ∧ s.skip? = none)
      (member : stage ∈ if p then [] else [s]) : stage.limit? = none ∧ stage.skip? = none := by
    split at member
    · cases member
    · rwa [List.mem_singleton.mp member]
  intro stage member
  simp only [List.mem_append, List.mem_singleton] at member
  rcases member with ((condition | rfl) | having) | ordering
  · exact optional ⟨rfl, rfl⟩ condition
  · exact ⟨rfl, rfl⟩
  · exact optional ⟨rfl, rfl⟩ having
  · exact optional ⟨rfl, rfl⟩ ordering

theorem counts_aggregateCommand (c : SelectClauses) (limit skip : Option Int) :
    (aggregateCommand c limit skip).limits = limit.toList ∧
      (aggregateCommand c limit skip).skips = skip.toList := by
  obtain ⟨front, plain, shape⟩ := exists_front c limit skip
  have behind {f : Stage → Option Int} (nothing : ∀ stage ∈ front, f stage = none)
      (stages : List Stage) : (front ++ stages).filterMap f = stages.filterMap f := by
    rw [List.filterMap_append, List.filterMap_eq_nil_iff.mpr nothing, List.nil_append]
  rw [shape, Command.limits, Command.skips, List.append_assoc,
    behind fun stage member => (plain stage member).1,
    behind fun stage member => (plain stage member).2]
  cases limit <;> cases skip <;> exact ⟨rfl, rfl⟩

namespace SelectClauses

variable (c : SelectClauses)

theorem limits_command :
    c.command.limits = c.counts.limit.toList.map fun digits => (numberOf digits : Int) := by
  unfold command
  dsimp only
  split
  · cases c.counts.limit <;> rfl
  · rw [(counts_aggregateCommand c _ _).1, Option.toList_map]

/-- A query without a limit skips nothing. -/
theorem skips_command :
    c.command.skips = if c.grouping = [] ∧ c.counts.limit = none then []
      else c.counts.skipped.toList.map fun digits => (numberOf digits : Int) := by
  unfold command
  dsimp only
  by_cases plain : c.grouping = []
  · cases limit : c.counts.limit <;> simp [plain, findCommand, Command.skips, Option.toList_map]
  · simp [plain, (counts_aggregateCommand c _ _).2, Option.toList_map]

/-- The limits and skips of a command are the numbers of the digits, and none of them is negative.
An OFFSET without a LIMIT is no part of a query. -/
structure HasCounts (command : Command) : Prop where
  limits : command.limits = c.counts.limit.toList.map fun digits => (numberOf digits : Int)
  skips : command.skips = if c.grouping = [] ∧ c.counts.limit = none then []
    else c.counts.skipped.toList.map fun digits => (numberOf digits : Int)
  bounded : ∀ n ∈ command.limits ++ command.skips, 0 ≤ n ∧ n < 2 ^ 63

theorem hasCounts_command (small : ∀ digits ∈ c.counts.texts, numberOf digits < 2 ^ 63) :
    c.HasCounts c.command := by
  refine ⟨c.limits_command, c.skips_command, fun n member => ?_⟩
  have spelled {digits : List Char} (inside : digits ∈ c.counts.texts) :
      0 ≤ (numberOf digits : Int) ∧ (numberOf digits : Int) < 2 ^ 63 :=
    ⟨Int.natCast_nonneg _, by exact_mod_cast small digits inside⟩
  have skipped : c.counts.skipped.toList ⊆ c.counts.texts := by
    unfold Counts.skipped Counts.texts
    cases c.counts.offset <;> simp
  rw [limits_command, skips_command, List.mem_append] at member
  rcases member with member | member
  · obtain ⟨digits, inside, rfl⟩ := List.mem_map.mp member
    exact spelled (by simp [Counts.texts, Option.mem_toList.mp inside])
  · split at member
    · cases member
    · obtain ⟨digits, inside, rfl⟩ := List.mem_map.mp member
      exact spelled (skipped inside)

end SelectClauses

/-! ### Exactness -/

/-- An integer of 64 bits is the literal of its text. -/
theorem classify_toString {z : Int} (fits : -2 ^ 63 ≤ z ∧ z < 2 ^ 63) :
    Literal.classify (toString z).toList = .int z := by
  have blank : ∀ c ∈ ([] : List Char), isBlank c = true := by simp
  have classified := ((IntegerText.ofInt z).denotes_classify blank blank).int
  rw [IntegerText.value_ofInt, IntegerText.chars_ofInt] at classified
  simpa using classified fits

/-- A SELECT is malformed exactly when digits of its LIMIT or OFFSET are too large, and the error
names such digits. Otherwise its command has the numbers of the digits. -/
theorem compileSelect_counts {s : List Char} {c : SelectClauses}
    (found : SelectClauses.read? s = some c) :
    ((∃ e, compileSelect s = .error e) ↔ ∃ digits ∈ c.counts.texts, 2 ^ 63 ≤ numberOf digits) ∧
    (∀ e, compileSelect s = .error e → ∃ digits ∈ c.counts.texts, 2 ^ 63 ≤ numberOf digits ∧
      e = .malformed .select (some (.countOutOfRange (String.ofList digits)))) ∧
    ∀ command, compileSelect s = .ok command → c.HasCounts command := by
  rcases compileSelect_cases found with ⟨digits, member, large, failed⟩ | ⟨small, compiled⟩
  · rw [failed]
    refine ⟨⟨fun _ => ⟨digits, member, large⟩, fun _ => ⟨_, rfl⟩⟩, fun e error => ?_,
      fun command ok => ?_⟩
    · exact ⟨digits, member, large, (Except.error.inj error).symm⟩
    · cases ok
  · rw [compiled]
    refine ⟨⟨fun ⟨e, error⟩ => ?_, fun ⟨digits, member, large⟩ => ?_⟩, fun e error => ?_,
      fun command ok => ?_⟩
    · cases error
    · exact absurd (small digits member) (Nat.not_lt.mpr large)
    · cases error
    · obtain rfl := Except.ok.inj ok
      exact c.hasCounts_command small

/-- Digits never wrap. A literal of digits is the integer that it spells or none at all, and an
integer of 64 bits is the literal of its text. The counts of a SELECT are the digits at its end; its
command has exactly their numbers, unless one is too large and the statement malformed. -/
theorem integers_are_exact :
    (∀ (t : IntegerText) (before after : List Char), (∀ c ∈ before, isBlank c = true) →
      (∀ c ∈ after, isBlank c = true) →
      t.Denotes (Literal.classify (before ++ t.chars ++ after))) ∧
    (∀ z : Int, -2 ^ 63 ≤ z ∧ z < 2 ^ 63 → Literal.classify (toString z).toList = .int z) ∧
    ∀ (s : List Char) (c : SelectClauses), SelectClauses.read? s = some c →
      (∃ front tail, s = front ++ tail ∧ c.counts.Spelled tail) ∧
      ((∃ e, compileSelect s = .error e) ↔ ∃ digits ∈ c.counts.texts, 2 ^ 63 ≤ numberOf digits) ∧
      (∀ e, compileSelect s = .error e → ∃ digits ∈ c.counts.texts, 2 ^ 63 ≤ numberOf digits ∧
        e = .malformed .select (some (.countOutOfRange (String.ofList digits)))) ∧
      ∀ command, compileSelect s = .ok command → c.HasCounts command :=
  ⟨fun t _ _ blanksBefore blanksAfter => t.denotes_classify blanksBefore blanksAfter,
    fun _ fits => classify_toString fits,
    fun _ _ found => ⟨SelectClauses.exists_tail_of_read? found, compileSelect_counts found⟩⟩

/-- The least integer behind zeros, the number after the greatest one, and a number too large for
any literal but a name; counts on either side of the bound. -/
theorem integers_are_exact_at_the_ends :
    let least : IntegerText := { sign := .minus, digits := "009223372036854775808".toList }
    let beyond : IntegerText := { sign := .plus, digits := "9223372036854775808".toList }
    let huge : IntegerText := { sign := .none, digits := '1' :: List.replicate 309 '0' }
    let fine := "SELECT a FROM t GROUP BY a LIMIT 007 ,1 OFFSET 9223372036854775807".toList
    let large := "SELECT a FROM t LIMIT 7, 18446744073709551621 OFFSET 1".toList
    Literal.classify ("\t ".toList ++ least.chars ++ ['\u00a0']) = .int (-9223372036854775808) ∧
    (∃ x, Literal.classify ([] ++ beyond.chars ++ []) = .float x) ∧
    Literal.classify ([] ++ huge.chars ++ []) = .reference (String.ofList huge.chars) ∧
    Literal.classify (toString (-42 : Int)).toList = .int (-42) ∧
    (∃ command, compileSelect fine = .ok command ∧ command.limits = [7] ∧
      command.skips = [9223372036854775807]) ∧
    compileSelect large =
      .error (.malformed .select (some (.countOutOfRange "18446744073709551621"))) := by
  intro least beyond huge fine large
  obtain ⟨literals, written, selects⟩ := integers_are_exact
  have blank : ∀ c ∈ ([] : List Char), isBlank c = true := by simp
  refine ⟨?_, ?_, ?_, written (-42) (by decide), ?_, ?_⟩
  · exact (literals least "\t ".toList ['\u00a0'] (by decide +kernel) (by decide +kernel)).int
      (by decide +kernel)
  · obtain ⟨x, -, float⟩ := (literals beyond [] [] blank blank).float (by decide +kernel)
      (by decide +kernel)
    exact ⟨x, float⟩
  · exact (literals huge [] [] blank blank).reference (by decide +kernel) (by decide +kernel)
  · let c : SelectClauses := {
      fields := ['a']
      collection := ['t']
      condition := []
      grouping := ['a']
      having := []
      ordering := []
      counts := ⟨some "007".toList, some ['1'], some "9223372036854775807".toList⟩ }
    obtain ⟨-, fails, -, counts⟩ := selects fine c (by decide +kernel)
    have small : ¬∃ digits ∈ c.counts.texts, 2 ^ 63 ≤ numberOf digits := by decide +kernel
    cases compiled : compileSelect fine with
    | error e => exact absurd (fails.mp ⟨e, compiled⟩) small
    | ok command =>
      obtain ⟨limits, skips, -⟩ := counts command compiled
      exact ⟨command, rfl, by rw [limits]; decide +kernel, by rw [skips]; decide +kernel⟩
  · let c : SelectClauses := {
      fields := ['a']
      collection := ['t']
      condition := []
      grouping := []
      having := []
      ordering := []
      counts := ⟨some ['7'], some "18446744073709551621".toList, some ['1']⟩ }
    obtain ⟨-, fails, errors, -⟩ := selects large c (by decide +kernel)
    obtain ⟨e, failed⟩ := fails.mpr (by decide +kernel)
    obtain ⟨digits, member, tooLarge, rfl⟩ := errors e failed
    have found : ∀ digits ∈ c.counts.texts, 2 ^ 63 ≤ numberOf digits →
        digits = "18446744073709551621".toList := by decide +kernel
    rw [failed, found digits member tooLarge, String.ofList_toList]

end SqlToMongo.Statement
