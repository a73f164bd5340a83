import SqlToMongo.Decimal.Style
import SqlToMongo.Json.Writer
import SqlToMongo.Mongo.Command

/-!
# Shell text

A command as a call in the mongo shell: `db.<collection>.<method>(<arguments>)`, with its arguments
as indented JSON.
-/

namespace SqlToMongo.Mongo.Shell

open Decimal Json

/-- Numbers keep a point, so that they stay apart from integers, and have an exponent only below
`10^-6` and from `10^21` on. -/
def numberStyle : NumberStyle where
  positional x := -6 ≤ x && x < 21
  mark := 'e'
  keepsPoint := true

/-- What is no number is null. -/
def number (x : Binary64) : Json :=
  if x.isFinite then .number (numberStyle.write x) else .null

/-- A value at a depth of indentation. -/
def value (indent : String) (depth : Nat) (v : Value) : String :=
  (v.toJson number).pretty escapeControls indent depth

/-- An argument of a call. -/
def argument (v : Value) : String :=
  value "  " 0 v

/-- A call with arguments. -/
def call (method : String) (arguments : List Value) : String :=
  method ++ "(" ++ ", ".intercalate (arguments.map argument) ++ ")"

/-- The calls that follow a `find`. Skipping is shown only together with a limit. -/
def findChain (q : Find) : List String :=
  (if q.projection.isEmpty then [] else [call "projection" [.doc q.projection]]) ++
  (q.sort.map fun keys => call "sort" [.doc keys]).toList ++
  match q.limit with
  | none => []
  | some limit =>
    (q.skip.map fun n => call "skip" [.int n]).toList ++ [call "limit" [.int limit]]

/-- The arguments of a command's method. -/
def arguments : Command → List Value
  | .find q => [.doc q.filter]
  | .aggregate _ pipeline => [.list (pipelineDocuments pipeline)]
  | .insertOne _ document => [.doc document]
  | .updateMany _ filter update => [.doc filter, .doc update]
  | .deleteMany _ filter => [.doc filter]
  | .unknown _ => []

/-- The calls that follow a command's method. -/
def chain : Command → List String
  | .find q => findChain q
  | _ => []

/-- The shell text of a command. -/
def render (c : Command) : String :=
  ".".intercalate (["db", c.collection, call c.method (arguments c)] ++ chain c)

end SqlToMongo.Mongo.Shell
