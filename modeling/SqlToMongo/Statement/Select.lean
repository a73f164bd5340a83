import SqlToMongo.Mongo.Command
import SqlToMongo.Mongo.Filter
import SqlToMongo.Sql.ConditionParser
import SqlToMongo.Sql.ItemList
import SqlToMongo.Sql.Literal
import SqlToMongo.Sql.Scan
import SqlToMongo.Statement.Error

/-!
# SELECT

`SELECT fields FROM c [WHERE ..] [GROUP BY ..] [HAVING ..] [ORDER BY ..] [LIMIT n[, skip]]
[OFFSET n]` is a query, or a pipeline when there is a GROUP BY. Every clause text runs to the first
place where a later clause, or the end of the statement, can follow.
-/

namespace SqlToMongo.Statement

open Mongo Sql Text

/-- The digits of LIMIT and OFFSET; `skip` is the second number of `LIMIT n, skip`. -/
structure Counts where
  limit : Option (List Char)
  skip : Option (List Char)
  offset : Option (List Char)
  deriving DecidableEq, Repr

/-- The texts of the clauses; an empty text is a missing clause. -/
structure SelectClauses where
  fields : List Char
  collection : List Char
  condition : List Char
  grouping : List Char
  having : List Char
  ordering : List Char
  counts : Counts
  deriving DecidableEq, Repr

namespace Counts

/-- An optional OFFSET at the end of a statement. -/
def offset? (s : List Char) : Option (Option (List Char)) :=
  match keywords? ["offset"] s with
  | some body =>
    match run? Char.isDigit body with
    | some (digits, []) => some (some digits)
    | _ => none
  | none => if s.isEmpty then some none else none

/-- The second number of a LIMIT, after a comma with optional gaps around it. -/
def skip? (s : List Char) : Option (List Char × List Char) :=
  match s.dropWhile isGap with
  | ',' :: rest => run? Char.isDigit (rest.dropWhile isGap)
  | _ => none

/-- An optional LIMIT and an optional OFFSET at the end of a statement. -/
def read? (s : List Char) : Option Counts :=
  match keywords? ["limit"] s with
  | some body => do
    let (limit, after) ← run? Char.isDigit body
    -- A comma without a number behind it is no part of the LIMIT, and nothing else can follow it.
    match skip? after with
    | some (skip, rest) => (offset? rest).map (⟨some limit, some skip, ·⟩)
    | none => (offset? after).map (⟨some limit, none, ·⟩)
  | none => (offset? s).map (⟨none, none, ·⟩)

end Counts

namespace SelectClauses

/-- The characters of a collection's name. -/
def isCollectionChar (c : Char) : Bool :=
  !isGap c && c != '('

/-- The clauses after the collection, outermost first. -/
def tail? : List Char → Option (List Char × List Char × List Char × List Char × Counts) :=
  optionalClause? ["where"] <| optionalClause? ["group", "by"] <| optionalClause? ["having"] <|
    optionalClause? ["order", "by"] Counts.read?

/-- FROM, the collection and the clauses after it. -/
def source? (s : List Char) :
    Option (List Char × List Char × List Char × List Char × List Char × Counts) := do
  let body ← keywords? ["from"] s
  let (collection, after) ← run? isCollectionChar body
  let clauses ← tail? after
  return (collection, clauses)

/-- The clauses of a SELECT. A gap of two or more characters right before FROM leaves room for an
empty list of fields. -/
def read? (s : List Char) : Option SelectClauses := do
  let start ← keyword? "select".toList s
  let body ← gap? start
  let empty := if body.length + 2 ≤ start.length then source? (' ' :: body) else none
  let (fields, collection, condition, grouping, having, ordering, counts) ←
    cutBefore? source? body <|> empty.map ([], ·)
  return {
    fields := trim fields
    collection := trim collection
    condition := trim condition
    grouping := trim grouping
    having := trim having
    ordering := trim ordering
    counts }

end SelectClauses

/-- The number of a LIMIT or OFFSET. -/
def readCount (digits : List Char) : Except Error Int :=
  if Decimal.fitsInt64 (Numeral.natOf digits) then .ok (Numeral.natOf digits)
  else .error (.malformed .select (some (.countOutOfRange (String.ofList digits))))

/-- The sort key and direction of an item of ORDER BY. The direction is its last word, after a key
without line feeds. -/
def sortKey (item : List Char) : String × Int :=
  let last := (item.reverse.takeWhile (!isGap ·)).reverse
  let rest := item.take (item.length - last.length)
  let key := (rest.reverse.dropWhile isGap).reverse
  -- A direction needs a key before it; alone it is a key itself.
  let directed (direction : Int) : String × Int :=
    if rest.isEmpty || key.contains '\n' then (String.ofList item, 1)
    else (String.ofList (trim key), direction)
  if isWord "asc".toList last then directed 1
  else if isWord "desc".toList last then directed (-1)
  else (String.ofList item, 1)

/-- The keys of an ORDER BY. -/
def sortKeys (ordering : List Char) : Document :=
  .ofEntries ((items ordering).map fun item => ((sortKey item).1, .int (sortKey item).2))

/-- What follows the first `AS` between gaps. -/
def afterAs? : List Char → Option (List Char)
  | [] => none
  | c :: rest =>
    match keywords? ["as"] (c :: rest) with
    | some name => some name
    | none => afterAs? rest

/-- The name that a field is projected under: its alias when it has one. -/
def projectedName (item : List Char) : String :=
  String.ofList (((afterAs? item).map trim).getD item)

/-- The projection of a list of fields; `*` takes all. -/
def projection (fields : List Char) : Document :=
  if fields = ['*'] then []
  else .ofEntries ((items fields).map fun item => (projectedName item, .int 1))

/-- A call of an aggregate function with its optional alias. -/
structure AggregateCall where
  function : List Char
  argument : List Char
  name : Option (List Char)
  deriving DecidableEq, Repr

namespace AggregateCall

/-- The end of a call: a closing parenthesis, then nothing or an alias. -/
def close? (s : List Char) : Option (Option (List Char)) :=
  match s.dropWhile isGap with
  | ')' :: [] => some none
  | ')' :: rest =>
    match (keywords? ["as"] rest).bind (run? isNameChar) with
    | some (name, []) => some (some name)
    | _ => none
  | _ => none

/-- A name, then an argument in parentheses, then an optional alias. -/
def read? (item : List Char) : Option AggregateCall := do
  let (function, after) ← run? isNameChar item
  match after.dropWhile isGap with
  | '(' :: body =>
    let (argument, name) ← cutBefore? close? (body.dropWhile isGap)
    return ⟨function, argument, name⟩
  | _ => none

/-- The accumulator of a call and the name it is stored under; `none` when the function is not an
aggregate function. -/
def stored? (call : AggregateCall) : Option (String × Value) :=
  let function := String.ofList (lowerAll call.function)
  let argument := String.ofList call.argument
  (accumulator? function).map fun operator =>
    ((call.name.map String.ofList).getD (function ++ "_" ++ argument),
     .doc [(operator, .string ("$" ++ argument))])

end AggregateCall

/-- The entry that a field contributes to a group: a call of an aggregate function its accumulator,
a plain field that is not a key the number 1, anything else nothing. -/
def contribution? (keys : List (List Char)) (item : List Char) : Option (String × Value) :=
  match AggregateCall.read? item with
  | some call => call.stored?
  | none => if keys.contains item then none else some (String.ofList item, .int 1)

/-- The group stage of a list of fields and a GROUP BY. -/
def groupStage (fields grouping : List Char) : Stage :=
  let keys := items grouping
  .group
    (.ofEntries (keys.map fun key => (String.ofList key, .string ("$" ++ String.ofList key))))
    (.ofEntries ((items fields).filterMap (contribution? keys)))

/-- The filter of a WHERE or HAVING text. -/
def filterOf (clause : List Char) : Document :=
  Filter.ofCondition (Condition.parse clause)

/-- The query of a SELECT without GROUP BY. An OFFSET without LIMIT is dropped. -/
def findCommand (c : SelectClauses) (limit skip : Option Int) : Command :=
  .find {
    collection := String.ofList c.collection
    filter := if c.condition.isEmpty then [] else filterOf c.condition
    projection := projection c.fields
    sort := if c.ordering.isEmpty then none else some (sortKeys c.ordering)
    skip := limit.bind fun _ => skip
    limit }

/-- The pipeline of a SELECT with GROUP BY. -/
def aggregateCommand (c : SelectClauses) (limit skip : Option Int) : Command :=
  .aggregate (String.ofList c.collection) <|
    (if c.condition.isEmpty then [] else [.filter (filterOf c.condition)]) ++
    [groupStage c.fields c.grouping] ++
    (if c.having.isEmpty then [] else [.filter (filterOf c.having)]) ++
    (if c.ordering.isEmpty then [] else [.sort (sortKeys c.ordering)]) ++
    (skip.map Stage.skip).toList ++ (limit.map Stage.limit).toList

/-- Compiles a SELECT. An OFFSET takes precedence over the second number of a LIMIT. -/
def compileSelect (s : List Char) : Except Error Command :=
  match SelectClauses.read? s with
  | none => .error (.malformed .select none)
  | some c => do
    -- Numbers are read in the order of the text, so the first that is too large is reported.
    let limit ← c.counts.limit.mapM readCount
    let skip ← c.counts.skip.mapM readCount
    let offset ← c.counts.offset.mapM readCount
    let skip := offset <|> skip
    return if c.grouping.isEmpty then findCommand c limit skip else aggregateCommand c limit skip

end SqlToMongo.Statement
