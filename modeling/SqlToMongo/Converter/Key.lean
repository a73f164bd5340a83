import SqlToMongo.Digest.Sha256
import SqlToMongo.Sql.Layout

/-!
# Keys of cached conversions

Statements that differ only in their layout share a key, and so do the shell format and no format.
-/

namespace SqlToMongo

open Sql

/-- What a key is the digest of. -/
def keyText (format sql : String) : String :=
  "fmt:" ++ (if format = "" then "shell" else format) ++ ":sql:" ++
    String.ofList (normalize sql.toList)

/-- The key of a statement in a format. -/
def conversionKey (format sql : String) : String :=
  Digest.Sha256.hexOf (keyText format sql)

end SqlToMongo
