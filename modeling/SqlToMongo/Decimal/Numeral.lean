import SqlToMongo.Decimal.Binary64
import SqlToMongo.Decimal.Word
import SqlToMongo.Text.Hex
import SqlToMongo.Text.Split

/-!
# Reading numbers

Decimal numbers with a point and an exponent, and integers in the bases that a leading mark tells.
-/

namespace SqlToMongo.Decimal

open Text

/-- The digits before the exponent: their number, and how many stand after the point. -/
def mantissa? (s : List Char) : Option (Nat × Nat) :=
  let whole := s.takeWhile Char.isDigit
  match s.dropWhile Char.isDigit with
  | [] => (digitsValue? whole).map (·, 0)
  | '.' :: fraction =>
    if fraction.all Char.isDigit then (digitsValue? (whole ++ fraction)).map (·, fraction.length)
    else none
  | _ => none

/-- The digits after `e`, with or without a sign. -/
def exponentValue? : List Char → Option Int
  | '-' :: ds => (digitsValue? ds).map fun n => -(n : Int)
  | '+' :: ds => (digitsValue? ds).map Int.ofNat
  | ds => (digitsValue? ds).map Int.ofNat

/-- The number nearest to `n · 10^e`; exponents far outside the range are not computed. -/
def scaled? (negative : Bool) (n : Nat) (e : Int) : Option Binary64 :=
  let top := ((Nat.toDigits 10 n).length : Int) + e
  if n = 0 ∨ top < -400 then some (.assemble negative 0 0)
  else if 400 < top then none
  else Binary64.ofDecimal? negative n e

def isExponentMark (c : Char) : Bool := c == 'e' || c == 'E'

/-- The exponent with its mark; nothing is the exponent zero. -/
def markedExponent? : List Char → Option Int
  | [] => some 0
  | _ :: rest => exponentValue? rest

/-- A decimal as it is spelled: its sign and `n · 10^e`. -/
def decimal? (s : List Char) : Option (Bool × Nat × Int) := do
  let (negative, body) := takeSign s
  let (n, places) ← mantissa? (body.takeWhile (!isExponentMark ·))
  let exponent ← markedExponent? (body.dropWhile (!isExponentMark ·))
  return (negative, n, exponent - places)

/-- The number nearest to a decimal; `none` for another text and for one beyond the greatest
number. -/
def readDecimal? (s : List Char) : Option Binary64 := do
  let (negative, n, e) ← decimal? s
  scaled? negative n e

/-- The values that have names, whatever their case. -/
def namedValues : List (String × Binary64) :=
  [("inf", .infinity), ("+inf", .infinity), ("-inf", .negativeInfinity),
   ("infinity", .infinity), ("+infinity", .infinity), ("-infinity", .negativeInfinity),
   ("nan", .notANumber)]

/-- The number nearest to `n · 2^e`; exponents far outside the range are not computed. -/
def scaledByTwo? (negative : Bool) (n : Nat) (e : Int) : Option Binary64 :=
  let top := (Nat.log2 n : Int) + e
  if n = 0 ∨ top < -1200 then some (.assemble negative 0 0)
  else if 1200 < top then none
  else Binary64.ofRatio? negative (n * Nat.pow 2 e.toNat) (Nat.pow 2 (-e).toNat)

/-- The number of hexadecimal digits, with a point or without, and a power of two behind them. -/
def readHexadecimal? (negative : Bool) (s : List Char) : Option Binary64 := do
  let mark (c : Char) : Bool := c == 'p' || c == 'P'
  let mantissa := s.takeWhile (!mark ·)
  let (whole, fraction) := (cut? '.' mantissa).getD (mantissa, [])
  if whole.isEmpty && fraction.isEmpty then none
  let n ← Hex.read? (whole ++ fraction)
  match s.dropWhile (!mark ·) with
  | [] => none
  | _ :: rest => do
    let exponent ← exponentValue? rest
    scaledByTwo? negative n (exponent - 4 * fraction.length)

/-- Whether each underscore stands between two digits; `after` tells whether a digit, or the mark of a
base, stands before the text. -/
def underscoresFit (isDigit : Char → Bool) : Bool → List Char → Bool
  | _, [] => true
  | after, '_' :: rest => after && (rest.head?.map isDigit).getD false && underscoresFit isDigit false rest
  | _, c :: rest => underscoresFit isDigit (isDigit c) rest

/-- The value of a name, of a decimal or of a hexadecimal number. Underscores may stand between
digits. -/
def readNumber? (s : List Char) : Option Binary64 :=
  match namedValues.lookup (String.ofList (s.map Char.toLower)) with
  | some x => some x
  | none =>
    let (negative, body) := match s with
      | '-' :: rest => (true, rest)
      | '+' :: rest => (false, rest)
      | rest => (false, rest)
    let isHexadecimal := match body with
      | '0' :: x :: _ :: _ => x == 'x' || x == 'X'
      | _ => false
    if isHexadecimal then
      let digits := body.drop 2
      if underscoresFit (fun c => (Hex.value? c).isSome) true digits then
        readHexadecimal? negative (digits.filter (· != '_'))
      else none
    else if underscoresFit Char.isDigit false body then readDecimal? (s.filter (· != '_'))
    else none

/-- The number nearest to an integer. -/
def ofInt (n : Int) : Binary64 :=
  (Binary64.ofRatio? (n < 0) n.natAbs 1).getD .infinity

/-- The integer part of a number, in 64 bits; what does not fit is the least integer. -/
def toInt64 (x : Binary64) : Int :=
  if x.isFinite then
    let (num, den) := x.ratio
    let n : Int := if x.isNegative then -(num / den : Nat) else (num / den : Nat)
    if fitsInt64 n then n else leastInt64
  else leastInt64

/-- The integer part of a number in 64 bits without a sign. One below zero wraps around, and what does
not fit is half the range. -/
def toNat64 (x : Binary64) : Nat :=
  let (num, den) := x.ratio
  let n := num / den
  if x.isFinite && !x.isNegative && !fitsInt64 n then
    if n < wordSize then n else wordSize / 2
  else (toInt64 x % wordSize).toNat

/-! ### Integers with a base -/

/-- The base of a number and its digits: a leading zero with a letter or alone tells the base. -/
def baseOf : List Char → Nat × List Char
  | '0' :: 'x' :: ds => (16, ds)
  | '0' :: 'X' :: ds => (16, ds)
  | '0' :: 'b' :: ds => (2, ds)
  | '0' :: 'B' :: ds => (2, ds)
  | '0' :: 'o' :: ds => (8, ds)
  | '0' :: 'O' :: ds => (8, ds)
  | '0' :: d :: ds => (8, d :: ds)
  | ds => (10, ds)

/-- Digits of a base, at least one; single underscores may stand between them. -/
def digitsInBase? (base : Nat) (s : List Char) : Option Nat :=
  let digit? (c : Char) : Option Nat := (Hex.value? c).bind fun n => if n < base then some n else none
  let step (state : Nat × Bool) (c : Char) : Option (Nat × Bool) :=
    if c = '_' then (if state.2 then some (state.1, false) else none)
    else (digit? c).map fun d => (base * state.1 + d, true)
  match s.foldlM step (0, false) with
  | some (n, true) => some n
  | _ => none

/-- The natural number of a text in the base that it tells. After the mark of a base an underscore
may stand too. -/
def readNat? (s : List Char) : Option Nat :=
  let (base, ds) := baseOf s
  match ds with
  | '_' :: rest => if base = 10 then none else digitsInBase? base rest
  | ds => digitsInBase? base ds

/-- The integer of digits in a base, with or without a sign, in 64 bits. -/
def readInBase? (base : Nat) (s : List Char) : Option Int := do
  let z ← match s with
    | '-' :: ds => (digitsInBase? base ds).map fun n => -(n : Int)
    | '+' :: ds => (digitsInBase? base ds).map Int.ofNat
    | ds => (digitsInBase? base ds).map Int.ofNat
  if fitsInt64 z then some z else none

/-- The integer of a text in the base that it tells, in 64 bits. -/
def readInt64? (s : List Char) : Option Int := do
  let z ← match s with
    | '-' :: rest => (readNat? rest).map fun n => -(n : Int)
    | '+' :: rest => (readNat? rest).map Int.ofNat
    | rest => (readNat? rest).map Int.ofNat
  if fitsInt64 z then some z else none

end SqlToMongo.Decimal
