import SqlToMongo.Json.Basic
import SqlToMongo.Mongo.Operator

/-!
# What is understood

A summary of the SQL that is converted, for people and programs that ask.
-/

namespace SqlToMongo

open Mongo

namespace Supported

/-- The statements, with their optional parts in brackets. -/
def statements : List String :=
  ["SELECT fields FROM c [WHERE ..] [GROUP BY ..] [HAVING ..] [ORDER BY ..] [LIMIT n[, skip]] [OFFSET n]",
   "INSERT INTO c [(cols)] VALUES (vals)",
   "UPDATE c SET col = val[, ..] [WHERE ..]",
   "DELETE FROM c [WHERE ..]"]

/-- The operators of conditions, as SQL writes and as a filter names them. -/
def operators : List (String × String) :=
  Operator.all.map fun op => (op.sql, op.name)

/-- The aggregate functions with their accumulators. -/
def aggregates : List (String × String) := accumulators

/-- The summary as JSON. -/
def toJson : Json :=
  .object
    [("statements", .array (statements.map .string)),
     ("operators", .array (operators.map fun (sql, name) => .array [.string sql, .string name])),
     ("aggregates", .array (aggregates.map fun (function, accumulator) =>
        .object [("function", .string function), ("accumulator", .string accumulator)]))]

end Supported

end SqlToMongo
