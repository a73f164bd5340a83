import SqlToMongo.Decimal.Numeral
import SqlToMongo.Decimal.Style
import SqlToMongo.Json.Basic

/-!
# Values as they are given back

Numbers have double precision, and the members of an object are in the order of their names, each
once.
-/

namespace SqlToMongo.Json

open Decimal

/-- Numbers of double precision: no exponent from `10^-6` to below `10^21`, no point after a whole
number, and no zero before the digits of an exponent. -/
def numberStyle : NumberStyle where
  positional x := -6 ≤ x && x < 21
  mark := 'e'
  keepsPoint := false
  exponentWidth := 1

/-- A number as it is given back. -/
def ofBinary64 (x : Binary64) : Json := .number (numberStyle.write x)

/-- The members in the order of their names, the last of each name. -/
def sortedMembers (members : List (String × Json)) : List (String × Json) :=
  let last := members.foldl (fun kept m => kept.filter (·.1 != m.1) ++ [m]) []
  last.mergeSort fun a b => !(b.1 < a.1)

mutual

/-- A value as it is given back. -/
def canonical : Json → Json
  | .number t => ((readDecimal? t.toList).map ofBinary64).getD (.number t)
  | .array items => .array (canonicalItems items)
  | .object members => .object (sortedMembers (canonicalMembers members))
  | j => j

def canonicalItems : List Json → List Json
  | [] => []
  | item :: rest => canonical item :: canonicalItems rest

def canonicalMembers : List (String × Json) → List (String × Json)
  | [] => []
  | (name, value) :: rest => (name, canonical value) :: canonicalMembers rest

end

end SqlToMongo.Json
