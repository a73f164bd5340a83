import SqlToMongo.Decimal.Numeral
import SqlToMongo.Json.Basic
import SqlToMongo.Text.Fold

/-!
# Forms of JSON values

A form says what a value is read as. A mismatch tells what was found, where, and the type of the
form. Null fits every form and leaves what was read before.
-/

namespace SqlToMongo.Json

open Decimal Text

inductive Form where
  | text (type : String)
  | truth
  | anything
  | list (type : String) (items : Form)
  | dictionary (type : String) (values : Form)
  /-- An object with known members; its type has a longer and a shorter name. -/
  | record (type label : String) (fields : List (String × Form))
  deriving Inhabited, Repr

namespace Form

/-- A plain text. -/
def string : Form := .text "string"

/-- The type of a form as a mismatch names it. -/
def type : Form → String
  | .text type | .list type _ | .dictionary type _ | .record type _ _ => type
  | .truth => "bool"
  | .anything => "interface \x7b\x7d"

/-- Whether a member stands for a field: names count in any case. -/
def isField (field member : String) : Bool :=
  field.toList.map fold == member.toList.map fold

end Form

/-- Where a value stands: the record that it belongs to, and the names that lead to it. -/
structure Place where
  record : String := ""
  names : List String := []
  deriving DecidableEq, Repr

structure Mismatch where
  found : String
  place : Place
  type : String
  deriving DecidableEq, Repr

namespace Mismatch

def message (m : Mismatch) : String :=
  "json: cannot unmarshal " ++ m.found ++
    (if m.place.names.isEmpty then " into Go value"
      else " into Go struct field " ++ m.place.record ++ "." ++ ".".intercalate m.place.names) ++
    " of type " ++ m.type

end Mismatch

mutual

/-- The first mismatch between a form and a value. -/
def mismatch? (place : Place) (form : Form) : Json → Option Mismatch
  | .null => none
  | .bool _ =>
    match form with
    | .truth | .anything => none
    | form => some ⟨"bool", place, form.type⟩
  | .number t =>
    match form with
    | .anything =>
      if (readDecimal? t.toList).isSome then none else some ⟨"number " ++ t, place, "float64"⟩
    | form => some ⟨"number", place, form.type⟩
  | .string _ =>
    match form with
    | .text _ | .anything => none
    | form => some ⟨"string", place, form.type⟩
  | .array items =>
    match form with
    | .list _ item => mismatchOfItems? place item items
    | .anything => mismatchOfItems? place .anything items
    | form => some ⟨"array", place, form.type⟩
  | .object members =>
    match form with
    | .record _ label fields => mismatchOfFields? label place.names fields members
    | .dictionary _ value => mismatchOfValues? place value members
    | .anything => mismatchOfValues? place .anything members
    | form => some ⟨"object", place, form.type⟩

def mismatchOfItems? (place : Place) (form : Form) : List Json → Option Mismatch
  | [] => none
  | item :: rest =>
    match mismatch? place form item with
    | some m => some m
    | none => mismatchOfItems? place form rest

def mismatchOfValues? (place : Place) (form : Form) : List (String × Json) → Option Mismatch
  | [] => none
  | (_, value) :: rest =>
    match mismatch? place form value with
    | some m => some m
    | none => mismatchOfValues? place form rest

/-- The first mismatch among the members that stand for fields; the others do not matter. -/
def mismatchOfFields? (label : String) (names : List String) (fields : List (String × Form)) :
    List (String × Json) → Option Mismatch
  | [] => none
  | (name, value) :: rest =>
    match fields.find? fun (field, _) => Form.isField field name with
    | none => mismatchOfFields? label names fields rest
    | some (field, form) =>
      match mismatch? ⟨label, names ++ [field]⟩ form value with
      | some m => some m
      | none => mismatchOfFields? label names fields rest

end

/-! ### Values of fields -/

def isNull : Json → Bool
  | .null => true
  | _ => false

/-- All values of a field, in order. -/
def fieldValues (field : String) : Json → List Json
  | .object members => (members.filter fun (name, _) => Form.isField field name).map (·.2)
  | _ => []

/-- The value of a field: the last one, null included. -/
def fieldValue (field : String) (j : Json) : Json := (j.fieldValues field).getLastD .null

/-- The text of a field: the last one that is not null, and empty without one. -/
def fieldText (field : String) (j : Json) : String :=
  ((j.fieldValues field).filterMap string?).getLastD ""

/-- The members of all objects that are values of a field. -/
def fieldObject (field : String) (j : Json) : Json :=
  .object <| (j.fieldValues field).flatMap fun
    | .object members => members
    | _ => []

/-- The members of the values of a field since the last null. -/
def fieldDictionary (field : String) (j : Json) : Json :=
  .object <| (j.fieldValues field).foldl
    (fun kept value =>
      match value with
      | .object members => kept ++ members
      | .null => []
      | _ => kept)
    []

end SqlToMongo.Json
