import SqlToMongo.Decimal.Shortest

/-!
# How numbers are written

One printer for the digits of a number, and one record per place where numbers are written.
-/

namespace SqlToMongo.Decimal

/-- The decisions of a number format. -/
structure NumberStyle where
  /-- The decimal exponents `d.ddd · 10^x` that are written without an exponent. -/
  positional : Int → Bool
  /-- The mark before an exponent. -/
  mark : Char
  /-- Whether `.0` follows a number written without exponent and point. -/
  keepsPoint : Bool
  /-- The least number of digits of an exponent. -/
  exponentWidth : Nat := 2

namespace NumberStyle

/-- The digits before and after the point of a number written without exponent. -/
def plain (keepsPoint : Bool) (d : Digits) : List Char :=
  let whole := d.digits.take d.point.toNat
  let whole := whole ++ List.replicate (d.point.toNat - whole.length) '0'
  let fraction := List.replicate (-d.point).toNat '0' ++ d.digits.drop d.point.toNat
  let fraction := if d.digits.isEmpty then [] else fraction
  (if whole.isEmpty then ['0'] else whole) ++
    (if fraction.isEmpty then (if keepsPoint then ['.', '0'] else []) else '.' :: fraction)

/-- One digit, the others after a point, and the exponent with its sign and a least number of
digits. -/
def scientific (mark : Char) (width : Nat) (d : Digits) : List Char :=
  let exponent := d.point - 1
  let magnitude := Nat.toDigits 10 exponent.natAbs
  d.digits.take 1 ++ (if 1 < d.digits.length then '.' :: d.digits.drop 1 else []) ++
    [mark, if exponent < 0 then '-' else '+'] ++
    List.replicate (width - magnitude.length) '0' ++ magnitude

/-- A finite number in a style. -/
def write (style : NumberStyle) (x : Binary64) : String :=
  let d := shortest x
  let body :=
    if d.digits.isEmpty || style.positional (d.point - 1) then plain style.keepsPoint d
    else scientific style.mark style.exponentWidth d
  String.ofList (if x.isNegative then '-' :: body else body)

end NumberStyle

/-- Numbers in messages: no exponent from `10^-4` to below `10^6`, and no point after a whole
number. -/
def messageStyle : NumberStyle where
  positional x := -4 ≤ x && x < 6
  mark := 'e'
  keepsPoint := false

end SqlToMongo.Decimal
