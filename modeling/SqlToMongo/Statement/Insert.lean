import SqlToMongo.Mongo.Command
import SqlToMongo.Sql.ItemList
import SqlToMongo.Sql.Literal
import SqlToMongo.Sql.Scan
import SqlToMongo.Statement.Error

/-!
# INSERT

`INSERT INTO c [(columns)] VALUES (values)` inserts one document. Only the first row is read.
Columns and values are paired by position: values beyond the columns are dropped, columns beyond the
values are null.
-/

namespace SqlToMongo.Statement

open Mongo Sql Text

/-- The texts of an INSERT: `rows` starts with the parenthesis of the first row. -/
structure InsertClauses where
  collection : List Char
  columns : List Char
  rows : List Char
  deriving DecidableEq, Repr

namespace InsertClauses

/-- VALUES and the rows. -/
def rows? (s : List Char) : Option (List Char) := do
  let after ← keyword? "values".toList (s.dropWhile isGap)
  let rows := after.dropWhile isGap
  if rows.head? = some '(' then some rows else none

/-- The optional columns in parentheses, then VALUES and the rows. -/
def columnsAndRows? (s : List Char) : Option (List Char × List Char) :=
  match s.dropWhile isGap with
  | '(' :: body =>
    match body.dropWhile (· != ')') with
    | ')' :: after => (rows? after).map (body.takeWhile (· != ')'), ·)
    | _ => none
  | after => (rows? after).map ([], ·)

/-- The clauses of an INSERT. The collection takes as many characters as it can. -/
def read? (s : List Char) : Option InsertClauses := do
  let s ← keyword? "insert".toList s
  let s ← keywords? ["into"] s
  let (collection, columns, rows) ←
    cutAfter? (fun c => !isGap c && c != '(') columnsAndRows? s
  return ⟨collection, columns, rows⟩

end InsertClauses

/-- The value of a column: null beyond the last value. -/
def columnValue (values : List (List Char)) (i : Nat) : Value :=
  match values[i]? with
  | some value => (Literal.classify value).toValue
  | none => .null

/-- The inserted document. Without columns the fields are numbered. -/
def insertedDocument (columns values : List (List Char)) : Document :=
  if columns.isEmpty then
    .ofEntries (values.zipIdx.map fun (value, i) =>
      ("field" ++ toString i, (Literal.classify value).toValue))
  else
    .ofEntries (columns.zipIdx.map fun (column, i) =>
      (String.ofList column, columnValue values i))

/-- Compiles an INSERT. -/
def compileInsert (s : List Char) : Except Error Command :=
  match InsertClauses.read? s with
  | none => .error (.malformed .insert none)
  | some c =>
    match firstGroup? c.rows with
    | none => .error (.malformed .insert (some .unbalancedValues))
    | some row =>
      .ok (.insertOne (String.ofList (trim c.collection))
        (insertedDocument (items c.columns) (items row)))

end SqlToMongo.Statement
