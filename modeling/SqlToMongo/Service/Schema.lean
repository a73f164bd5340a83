import SqlToMongo.Decimal.Numeral
import SqlToMongo.Json.Form
import SqlToMongo.Json.Reader
import SqlToMongo.Text.Utf8

/-!
# The shape of request bodies

A body is an object with known members. Each fault is told with the place where it is; a value of
the wrong type has no other fault.
-/

namespace SqlToMongo.Service

open Decimal Text

/-- What a member must be. -/
inductive Shape where
  /-- A string with a least number of characters. -/
  | text (least : Nat)
  /-- One of some strings. -/
  | choice (options : List String)
  /-- A list of strings with a least and a greatest number of items. -/
  | texts (least greatest : Nat)
  deriving DecidableEq, Repr

/-- The members of a body: name, shape, and whether it must be there. -/
abbrev Schema := List (String × Shape × Bool)

/-- The greatest power of ten that is looked at. -/
def maxPower : Nat := 1000000

/-- Whether a number, as written, is an integer. One that is too large or too small to look at is
none. -/
def isIntegerText (text : String) : Bool :=
  let mark (c : Char) : Bool := c == 'e' || c == 'E'
  let body := text.toList.dropWhile (· == '-')
  match mantissa? (body.takeWhile (!mark ·)) with
  | none => false
  | some (n, places) =>
    let exponent := ((exponentValue? ((body.dropWhile (!mark ·)).drop 1)).getD 0)
    let below : Int := places - exponent
    if n = 0 then true
    else if maxPower < below.natAbs then false
    else if below ≤ 0 then true
    else if ((Nat.toDigits 10 n).length : Int) < below then false
    else n % Nat.pow 10 below.toNat = 0

/-- The type of a value as messages name it. -/
def typeName : Json → String
  | .null => "null"
  | .bool _ => "boolean"
  | .number text => if isIntegerText text then "integer" else "number"
  | .string _ => "string"
  | .array _ => "array"
  | .object _ => "object"

def typeFault (place expected : String) (value : Json) : String :=
  place ++ ": Invalid type. Expected: " ++ expected ++ ", given: " ++ typeName value

/-- The faults of a value at a place. -/
def Shape.faults (place : String) : Shape → Json → List String
  | .text least, .string s =>
    if s.length < least then
      [place ++ ": String length must be greater than or equal to " ++ toString least]
    else []
  | .choice options, .string s =>
    if options.contains s then []
    else
      [place ++ ": " ++ place ++ " must be one of the following: " ++
        ", ".intercalate (options.map fun o => "\"" ++ o ++ "\"")]
  | .texts least greatest, .array items =>
    (if items.length < least then
      [place ++ ": Array must have at least " ++ toString least ++ " items"] else []) ++
    (if greatest < items.length then
      [place ++ ": Array must have at most " ++ toString greatest ++ " items"] else []) ++
    items.zipIdx.flatMap fun (item, i) =>
      match item with
      | .string _ => []
      | _ => [typeFault (place ++ "." ++ toString i) "string" item]
  | .texts _ _, value => [typeFault place "array" value]
  | _, value => [typeFault place "string" value]

/-- The names of the members, each once. -/
def memberNames (members : List (String × Json)) : List String :=
  (members.map (·.1)).eraseDups

/-- The faults of a body. -/
def Schema.faults (schema : Schema) : Json → List String
  | .object members =>
    let body := Json.object members
    let given (name : String) : Bool := members.any (·.1 == name)
    (schema.filter fun (name, _, required) => required && !given name).map
        (fun (name, _) => "(root): " ++ name ++ " is required") ++
      ((memberNames members).filter fun name => schema.all (·.1 != name)).map
        (fun name => "(root): Additional property " ++ name ++ " is not allowed") ++
      schema.flatMap fun (name, shape, _) =>
        match body.member? name with
        | some value => shape.faults name value
        | none => []
  | value => [typeFault "(root)" "object" value]

/-- What a member is read as. -/
def Shape.form : Shape → Json.Form
  | .text _ | .choice _ => .string
  | .texts _ _ => .list "[]string" .string

/-- What a body is read as. -/
def Schema.form (schema : Schema) (label : String) : Json.Form :=
  .record ("serv." ++ label) label (schema.map fun (name, shape, _) => (name, shape.form))

/-- The parts of a text between semicolons that a space follows. -/
def splitFaults : List Char → List (List Char)
  | [] => [[]]
  | ';' :: ' ' :: rest => [] :: splitFaults rest
  | c :: rest =>
    match splitFaults rest with
    | [] => [[c]]
    | part :: parts => (c :: part) :: parts

/-- The faults in one line, in alphabetical order. -/
def faultText (faults : List String) : String :=
  let parts := (splitFaults ("; ".intercalate faults).toList).map String.ofList
  "; ".intercalate (parts.mergeSort fun a b => !(b < a))

/-- The formats that a request may name. -/
def formatChoice : Shape := .choice ["", "shell", "command"]

def convertSchema : Schema :=
  [("sql", .text 1, true), ("format", formatChoice, false)]

def batchSchema : Schema :=
  [("statements", .texts 1 1000, true), ("format", formatChoice, false)]

/-- Bodies are read up to this number of bytes. -/
def maxBodySize : Nat := 1024 * 1024

/-- The body as far as it is read. -/
def readableBody (body : String) : String :=
  if body.utf8ByteSize ≤ maxBodySize then body else ofUtf8 ((utf8 body).take maxBodySize)

/-- Reads a body of a schema; the error is the message. `cause` is what is said of a text that is no
JSON value or has something after it. The schema looks at the last value of each member, but the
others are read too. -/
def readBody (cause label : String) (schema : Schema) (body : String) : Except String Json :=
  match Json.readFirst? (readableBody body).toList with
  | none => .error ("invalid json: " ++ cause)
  | some (value, rest) =>
    match schema.faults value with
    | [] =>
      if !(Json.skipSpace rest).isEmpty then .error cause
      else
        match Json.mismatch? {} (schema.form label) value with
        | some mismatch => .error mismatch.message
        | none => .ok value
    | faults => .error ("invalid request: " ++ faultText faults)

end SqlToMongo.Service
