import SqlToMongo.Mongo.Operator

/-!
# Conditions

The tree of a WHERE or HAVING clause. Values are kept as written: numbers stay texts.
-/

namespace SqlToMongo.Sql

open Mongo

inductive Condition where
  /-- A field compared with one value. -/
  | compare (field : String) (op : Comparison) (value : String)
  /-- A field tested against a list of values. -/
  | member (field : String) (test : Membership) (values : List String)
  /-- A text without an operator. -/
  | truthy (text : String)
  /-- Some of the terms. -/
  | any (terms : List Condition)
  /-- All of the terms, read from left to right. -/
  | all (terms : List Condition)
  deriving Inhabited, Repr

end SqlToMongo.Sql
