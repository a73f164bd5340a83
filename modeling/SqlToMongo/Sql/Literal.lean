import SqlToMongo.Decimal.Word
import SqlToMongo.Mongo.Value
import SqlToMongo.Sql.Quotation
import SqlToMongo.Text.Blank
import SqlToMongo.Text.LowerCase

/-!
# Literals

The values of INSERT and SET are typed by their look. An integer is exact or it is none: digits
beyond 64 bits make a number with a fraction, and what no such number reaches is a name. Reading
never fails: what is nothing else is a reference to a field.
-/

namespace SqlToMongo.Sql

open Decimal Mongo Text

inductive Literal where
  | string (s : String)
  | int (n : Int)
  | float (x : Binary64)
  | bool (b : Bool)
  | null
  | reference (field : String)
  deriving DecidableEq, Repr

inductive LiteralKind where
  | string
  | int
  | float
  | bool
  | null
  | reference
  deriving DecidableEq, Repr

namespace LiteralKind

/-- The kinds in the order of their codes. -/
def all : List LiteralKind :=
  [string, int, float, bool, null, reference]

def name : LiteralKind → String
  | string => "string"
  | int => "int"
  | float => "float"
  | bool => "bool"
  | null => "null"
  | reference => "ref"

end LiteralKind

/-- A numeral: its sign, the digits before and after the point, and whether there is a point. -/
structure Numeral where
  negative : Bool
  whole : List Char
  fraction : List Char
  pointed : Bool
  deriving DecidableEq, Repr

namespace Numeral

/-- The number that a run of digits stands for. -/
def natOf (digits : List Char) : Nat :=
  digits.foldl (fun n c => 10 * n + (c.toNat - '0'.toNat)) 0

/-- An optional sign, then digits with an optional point behind or among them, or a point with
digits behind it. -/
def read? (s : List Char) : Option Numeral :=
  let (negative, body) :=
    match s with
    | '-' :: rest => (true, rest)
    | '+' :: rest => (false, rest)
    | _ => (false, s)
  let whole := body.takeWhile Char.isDigit
  match body.dropWhile Char.isDigit with
  | [] => if whole.isEmpty then none else some ⟨negative, whole, [], false⟩
  | '.' :: fraction =>
    if fraction.all Char.isDigit && !(whole.isEmpty && fraction.isEmpty) then
      some ⟨negative, whole, fraction, true⟩
    else none
  | _ => none

/-- The integer of a numeral without a point. -/
def toInt (n : Numeral) : Int :=
  if n.negative then -(natOf n.whole : Int) else natOf n.whole

/-- The double precision number nearest to a numeral, unless it is too large. -/
def toFloat? (n : Numeral) : Option Binary64 :=
  Binary64.ofDecimal? n.negative (natOf (n.whole ++ n.fraction)) (-(n.fraction.length : Int))

end Numeral

namespace Literal

/-- The literal of a numeral. -/
def ofNumeral? (n : Numeral) : Option Literal :=
  if !n.pointed && fitsInt64 n.toInt then some (.int n.toInt)
  else n.toFloat?.map .float

/-- A word that is no number: a truth value, null or the name of a field. -/
def ofName (s : List Char) : Literal :=
  match String.ofList (lowerAll s) with
  | "true" => .bool true
  | "false" => .bool false
  | "null" => .null
  | _ => .reference (String.ofList s)

/-- The literal that a text looks like, blanks around it apart. -/
def classify (text : List Char) : Literal :=
  let s := trim text
  match quoted? s with
  | some content => .string (String.ofList content)
  | none => ((Numeral.read? s).bind ofNumeral?).getD (ofName s)

def kind : Literal → LiteralKind
  | string _ => .string
  | int _ => .int
  | float _ => .float
  | bool _ => .bool
  | null => .null
  | reference _ => .reference

/-- The value as a document holds it. -/
def toValue : Literal → Value
  | string s => .string s
  | int n => .int n
  | float x => .float x
  | bool b => .bool b
  | null => .null
  | reference field => .string ("$" ++ field)

end Literal

end SqlToMongo.Sql
