/-!
# Hexadecimal text

Digits are written in small letters and read in either case.
-/

namespace SqlToMongo.Text.Hex

/-- The sixteen digits in order. -/
def digits : List Char := "0123456789abcdef".toList

/-- The digit of a number below sixteen. -/
def digit (n : Nat) : Char := digits.getD n '0'

/-- The number with at least `width` digits. -/
def padded (width n : Nat) : List Char :=
  let ds := Nat.toDigits 16 n
  List.replicate (width - ds.length) '0' ++ ds

/-- The value of one digit. -/
def value? (c : Char) : Option Nat :=
  digits.findIdx? (· == c.toLower)

/-- The number that a run of digits stands for. -/
def read? (s : List Char) : Option Nat :=
  s.foldlM (fun n c => (value? c).map (16 * n + ·)) 0

/-- Two digits for each byte. -/
def ofBytes (bytes : List UInt8) : List Char :=
  bytes.flatMap fun b => [digit (b.toNat / 16), digit (b.toNat % 16)]

end SqlToMongo.Text.Hex
