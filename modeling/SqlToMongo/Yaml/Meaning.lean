import SqlToMongo.Decimal.Numeral
import SqlToMongo.Text.Base64
import SqlToMongo.Text.Utf8
import SqlToMongo.Yaml.Basic
import SqlToMongo.Yaml.Moment

/-!
# What scalars stand for

A plain scalar stands for what it looks like, and a quoted one for its text. A tag names the kind; a
scalar that looks like another kind is then wrong.
-/

namespace SqlToMongo.Yaml

open Decimal Text

inductive Meaning where
  | null
  | bool (b : Bool)
  | int (n : Int)
  | float (x : Binary64)
  | text (s : String)
  /-- A date, with or without a time. -/
  | moment
  deriving DecidableEq, Repr

namespace Meaning

/-- The tag of a kind. -/
def tag : Meaning → String
  | null => "!!null"
  | bool _ => "!!bool"
  | int _ => "!!int"
  | float _ => "!!float"
  | text _ => "!!str"
  | moment => "!!timestamp"

/-- The texts that stand for something by themselves. -/
def named : List (String × Meaning) :=
  ["", "~", "null", "Null", "NULL"].map (·, null) ++
    ["true", "True", "TRUE"].map (·, bool true) ++
    ["false", "False", "FALSE"].map (·, bool false) ++
    [".nan", ".NaN", ".NAN"].map (·, float .notANumber) ++
    [".inf", ".Inf", ".INF", "+.inf", "+.Inf", "+.INF"].map (·, float .infinity) ++
    ["-.inf", "-.Inf", "-.INF"].map (·, float .negativeInfinity)

/-- The integer of a text without underscores: in 64 bits, with a sign or without, in the base that it
tells. The sign can also stand behind a small letter for the base. -/
def integer? (s : List Char) : Option Int :=
  match readInt64? s with
  | some n => some n
  | none =>
    match readNat? s, s with
    | some n, _ => if n < wordSize then some n else none
    | none, '0' :: 'b' :: ds => readInBase? 2 ds
    | none, '0' :: 'o' :: ds => readInBase? 8 ds
    | none, _ => none

/-- The number of a text that begins like one. Underscores do not count, except after a point at the
front. -/
def number? (s : List Char) : Option Meaning :=
  let first := s.headD ' '
  if first == '.' then (readNumber? s).map float
  else if first.isDigit || first == '-' || first == '+' then
    let s := s.filter (· != '_')
    match integer? s with
    | some n => some (int n)
    | none => (readDecimal? s).map float
  else none

/-- What a text looks like; `dates` tells whether it may be a date. -/
def ofLook (dates : Bool) (s : String) : Meaning :=
  match named.lookup s with
  | some m => m
  | none =>
    if dates && Moment.isMoment s.toList then moment else (number? s.toList).getD (text s)

/-- An integer in place of a number with a fraction. -/
def widened? : Meaning → Option Meaning
  | int n => if fitsInt64 n then some (float (ofInt n)) else none
  | _ => none

/-- What a scalar stands for; `none` when it does not look like what its tag says. -/
def ofScalar? (s : String) (plain : Bool) (tag : Option String) : Option Meaning :=
  match tag with
  | none => some (if plain then ofLook true s else text s)
  | some "!!str" => some (text s)
  | some "!!binary" => (Base64.decode? s).map fun bytes => text (ofUtf8 bytes)
  | some "!!merge" => if s = "<<" then some (text s) else none
  | some tag =>
    let look := ofLook (tag == "!!timestamp") s
    if look.tag = tag then some look
    else if tag = "!!float" then look.widened?
    else none

end Meaning

/-- The node that a link stands for. -/
def target : Yaml → Yaml
  | .link _ node => node
  | node => node

/-- What a scalar stands for, as a text: null is none, and all but texts are what is written. `none`
for other nodes. -/
def scalarText? (node : Yaml) : Option (Option String) :=
  match node.target with
  | .scalar s plain tag =>
    (Meaning.ofScalar? s plain tag).map fun
      | .null => none
      | .text t => some t
      | _ => some s
  | _ => none

end SqlToMongo.Yaml
