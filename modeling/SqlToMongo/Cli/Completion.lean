import SqlToMongo.Text.Fold

/-!
# Completing keywords
-/

namespace SqlToMongo.Cli

open Text

/-- The keywords that are offered. -/
def keywords : List String :=
  ["SELECT", "FROM", "WHERE", "GROUP BY", "HAVING", "ORDER BY", "LIMIT", "OFFSET",
   "INSERT INTO", "VALUES", "UPDATE", "SET", "DELETE FROM",
   "AND", "OR", "NOT IN", "IN", "LIKE", "AS", "ASC", "DESC",
   "COUNT(*)", "SUM(", "AVG(", "MIN(", "MAX(",
   "NULL", "TRUE", "FALSE", "NOW()"]

/-- The characters after which a word begins. -/
def endsWord (c : Char) : Bool := c == ' ' || c == '(' || c == ','

/-- The last word of a line, and what stands before it. -/
def lastWord (line : List Char) : List Char × List Char :=
  let word := (line.reverse.takeWhile (!endsWord ·)).reverse
  (line.take (line.length - word.length), word)

/-- The line with its last word completed in all possible ways, in alphabetical order. -/
def completions (line : String) : List String :=
  let (before, word) := lastWord line.toList
  if word.isEmpty then []
  else
    let matching := keywords.filter fun k => (word.map upper).isPrefixOf k.toList
    (matching.map fun k => String.ofList before ++ k).mergeSort fun a b => !(b < a)

end SqlToMongo.Cli
