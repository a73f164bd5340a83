import SqlToMongo.Decimal.Numeral
import SqlToMongo.Decimal.Style
import SqlToMongo.Json.Basic
import SqlToMongo.Text.LowerCase
import SqlToMongo.Text.Split
import SqlToMongo.Yaml.Meaning

/-!
# Values of settings

A file of settings is a tree whose names do not depend on case. Values of one kind are taken for
another where that makes sense: numbers, truth values and texts stand for each other.
-/

namespace SqlToMongo.Config

open Decimal Text

inductive Value where
  | null
  | bool (b : Bool)
  | int (n : Int)
  | float (x : Binary64)
  | text (s : String)
  /-- A date or a time. -/
  | moment
  | list (items : List Value)
  | group (entries : List (String × Value))
  deriving Inhabited, Repr

namespace Value

/-! ### Names -/

/-- The entries with a value stored under a name, in its old place if it has one. -/
def put (entries : List (String × Value)) (name : String) (value : Value) : List (String × Value) :=
  if entries.any (·.1 == name) then
    entries.map fun (n, v) => if n == name then (n, value) else (n, v)
  else entries ++ [(name, value)]

/-- One entry of each name, the last one. -/
def lastOfEach (entries : List (String × Value)) : List (String × Value) :=
  entries.foldl (fun kept (name, value) => put kept name value) []

/-- One entry of each name, the first one. -/
def firstOfEach (entries : List (String × Value)) : List (String × Value) :=
  lastOfEach entries.reverse

/-- The entries with names in lower case; one whose name was not counts more than one whose name
was. -/
def lowerNames (entries : List (String × Value)) : List (String × Value) :=
  let (lower, others) := entries.partition fun (name, _) => lowered name == name
  lastOfEach (lower ++ others.map fun (name, value) => (lowered name, value))

/-! ### From files -/

mutual

/-- The tree of a JSON value; numbers have double precision. `none` when one is too large. -/
def ofJson? : Json → Option Value
  | .null => some .null
  | .bool b => some (.bool b)
  | .number t => (readDecimal? t.toList).map .float
  | .string s => some (.text s)
  | .array items => (ofJsonItems? items).map .list
  | .object members => (ofJsonMembers? members).map fun entries => .group (lowerNames entries)

def ofJsonItems? : List Json → Option (List Value)
  | [] => some []
  | item :: rest => do return (← ofJson? item) :: (← ofJsonItems? rest)

def ofJsonMembers? : List (String × Json) → Option (List (String × Value))
  | [] => some []
  | (name, value) :: rest => do return (name, ← ofJson? value) :: (← ofJsonMembers? rest)

end

def ofMeaning : Yaml.Meaning → Value
  | .null => .null
  | .bool b => .bool b
  | .int n => .int n
  | .float x => .float x
  | .text s => .text s
  | .moment => .moment

/-- The tree of a YAML node that is nested at most as deep as the first argument says. `none` for a
scalar that contradicts its tag, for a node inside itself, and for a key that is no scalar. Keys that
are null do not count. -/
def ofYaml? : Nat → Yaml → Option Value
  | _, .scalar s plain tag => (Yaml.Meaning.ofScalar? s plain tag).map ofMeaning
  | 0, _ | _, .knot _ => none
  | depth + 1, .link _ node => ofYaml? depth node
  | depth + 1, .sequence items => (items.mapM (ofYaml? depth)).map .list
  | depth + 1, .mapping entries => do
    let entries ← (Yaml.mapping entries).entries?
    let entries ← entries.mapM fun (key, value) => do
      return (← key.scalarText?).map (·, ← ofYaml? depth value)
    return .group (lowerNames (firstOfEach (entries.filterMap id)))

/-! ### Looking up and merging -/

/-- The entries of a section; anything else has none. -/
def entries : Value → List (String × Value)
  | .group entries => entries
  | _ => []

def lookup? (v : Value) (name : String) : Option Value := v.entries.lookup name

/-- A value that is there and not null. -/
def present? : Option Value → Option Value
  | some .null => none
  | v => v

/-- The value of a setting, null apart: under its own name, or in its section. -/
def setting? (v : Value) (group name : String) : Option Value :=
  if group = "" then present? (v.lookup? name)
  else
    match present? (v.lookup? (group ++ "." ++ name)) with
    | some found => some found
    | none => present? ((v.lookup? group).bind (·.lookup? name))

/-- One section over another, as deep as `depth`: sections are merged name by name, and a section
stays when something else is put over it. -/
def mergeOver : Nat → List (String × Value) → List (String × Value) → List (String × Value)
  | 0, _, below => below
  | depth + 1, above, below =>
    above.foldl
      (fun merged (name, value) =>
        match merged.lookup name, value with
        | some (.group inner), .group outer =>
          put merged name (.group (mergeOver depth outer inner))
        | some (.group _), _ => merged
        | _, _ => put merged name value)
      below

mutual

/-- How deep sections are nested. -/
def depth : Value → Nat
  | .group entries => depthOfEntries entries + 1
  | _ => 0

def depthOfEntries : List (String × Value) → Nat
  | [] => 0
  | (_, v) :: rest => max (depth v) (depthOfEntries rest)

end

/-- One tree over another. -/
def merge (above below : Value) : Value :=
  .group (mergeOver (above.depth + 1) above.entries below.entries)

/-! ### One kind for another -/

/-- Numbers in texts have no exponent. -/
def plainStyle : NumberStyle where
  positional _ := true
  mark := 'e'
  keepsPoint := false

/-- A number as a text. -/
def numberText (x : Binary64) : String :=
  if x.isFinite then plainStyle.write x
  else if x.isNaN then "NaN" else if x.isNegative then "-Inf" else "+Inf"

def toText? : Value → Option String
  | .text s => some s
  | .bool b => some (if b then "1" else "0")
  | .int n => some (toString n)
  | .float x => some (numberText x)
  | _ => none

/-- A number with a fraction loses it, and one above the greatest integer wraps around. -/
def toInt? : Value → Option Int
  | .int n => some (n.bmod wordSize)
  | .float x => some (toInt64 x)
  | .bool b => some b.toInt
  | .text s => readInt64? (if s = "" then "0" else s).toList
  | _ => none

/-- A number below zero wraps around. -/
def toNat? : Value → Option Nat
  | .int n => some (n % wordSize).toNat
  | .float x => some (toNat64 x)
  | .bool b => some b.toNat
  | .text s => do
    let n ← readNat? (if s = "" then "0" else s).toList
    if n < wordSize then some n else none
  | _ => none

def toBool? : Value → Option Bool
  | .bool b => some b
  | .int n => some (n != 0)
  | .float x => some (!x.isZero)
  | .text s =>
    if ["1", "t", "T", "true", "TRUE", "True"].contains s then some true
    else if ["0", "f", "F", "false", "FALSE", "False", ""].contains s then some false
    else none
  | _ => none

def toFloat? : Value → Option Binary64
  | .int n => some (ofInt n)
  | .float x => some x
  | .bool b => some (ofInt b.toInt)
  | .text s => readNumber? (if s = "" then "0" else s).toList
  | _ => none

/-- A text is cut at its commas, and a single value is a list of one. -/
def toTexts? : Value → Option (List String)
  | .text s => some (if s = "" then [] else (splitOn (· == ',') s.toList).map String.ofList)
  | .list items =>
    items.mapM fun item =>
      match item with
      | .null => some ""
      | item => item.toText?
  | .group [] => some []
  | v => v.toText?.map ([·])

/-- The text of a name in a file: what is no scalar is none, and a moment is a name that no file has. -/
def asName : Value → String
  | .bool b => if b then "true" else "false"
  | .moment => "\x00"
  | v => v.toText?.getD ""

end Value

end SqlToMongo.Config
