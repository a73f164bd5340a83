import SqlToMongo.Decimal.Style
import SqlToMongo.Json.Writer
import SqlToMongo.Mongo.Command

/-!
# Command documents

A command as the document that the database itself takes, written as relaxed Extended JSON.
-/

namespace SqlToMongo.Mongo

open Decimal Json

namespace Command

/-- The command as a document for the database. -/
def toDocument : Command → Document
  | find q =>
    [("find", .string q.collection), ("filter", .doc q.filter)] ++
    (if q.projection.isEmpty then [] else [("projection", .doc q.projection)]) ++
    (q.sort.map fun keys => ("sort", Value.doc keys)).toList ++
    match q.limit with
    | none => []
    | some limit => (q.skip.map fun n => ("skip", Value.int n)).toList ++ [("limit", .int limit)]
  | aggregate collection pipeline =>
    [("aggregate", .string collection), ("pipeline", .list (pipelineDocuments pipeline)),
     ("cursor", .doc [])]
  | insertOne collection document =>
    [("insert", .string collection), ("documents", .list [.doc document])]
  | updateMany collection filter update =>
    [("update", .string collection),
     ("updates", .list [.doc [("q", .doc filter), ("u", .doc update), ("multi", .bool true)]])]
  | deleteMany collection filter =>
    [("delete", .string collection),
     ("deletes", .list [.doc [("q", .doc filter), ("limit", .int 0)]])]
  | unknown _ => []

end Command

namespace ExtendedJson

/-- Numbers keep a point unless they have an exponent, which they do below `10^-4` and from `10^6`
on. -/
def numberStyle : NumberStyle where
  positional x := -4 ≤ x && x < 6
  mark := 'E'
  keepsPoint := true

/-- What is no number is named. -/
def number (x : Binary64) : Json :=
  if x.isFinite then .number (numberStyle.write x)
  else
    let name := if x.isNaN then "NaN" else if x.isNegative then "-Infinity" else "Infinity"
    .object [("$numberDouble", .string name)]

/-- A document with each entry on a line of its own. -/
def render (d : Document) : String :=
  ((Value.doc d).toJson number).pretty escapeSeparators "  " 0

end ExtendedJson

end SqlToMongo.Mongo
