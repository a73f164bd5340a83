import SqlToMongo.Statement.Select

/-!
# UPDATE and DELETE

`UPDATE c SET field = value[, ..] [WHERE ..]` and `DELETE FROM c [WHERE ..]`. The condition is
everything after the first WHERE; without one every document is meant.
-/

namespace SqlToMongo.Statement

open Mongo Sql Text

/-- The texts of an UPDATE; an empty condition is a missing one. -/
structure UpdateClauses where
  collection : List Char
  assignments : List Char
  condition : List Char
  deriving DecidableEq, Repr

/-- WHERE and the condition up to the end of the statement, or the end itself. -/
def condition? (s : List Char) : Option (List Char) :=
  match keywords? ["where"] s with
  | some clause => some clause
  | none => if s.isEmpty then some [] else none

/-- The clauses of an UPDATE. -/
def UpdateClauses.read? (s : List Char) : Option UpdateClauses := do
  let s ← keyword? "update".toList s
  let s ← gap? s
  let (collection, s) ← run? (!isGap ·) s
  let s ← keywords? ["set"] s
  let (assignments, condition) ← cutBefore? condition? s
  return ⟨collection, assignments, condition⟩

/-- The field and value of an assignment. An item without `=` or without a field assigns
nothing. -/
def assignment? (item : List Char) : Option (String × Value) :=
  match item.dropWhile (· != '=') with
  | _ :: value =>
    let field := trim (item.takeWhile (· != '='))
    if field.isEmpty then none
    else some (String.ofList field, (Literal.classify value).toValue)
  | [] => none

/-- The filter of an optional condition. -/
def optionalFilter (condition : List Char) : Document :=
  if (trim condition).isEmpty then [] else filterOf (trim condition)

/-- Compiles an UPDATE. -/
def compileUpdate (s : List Char) : Except Error Command :=
  match UpdateClauses.read? s with
  | none => .error (.malformed .update none)
  | some c =>
    .ok (.updateMany (String.ofList c.collection) (optionalFilter c.condition)
      [("$set", .doc (Document.ofEntries ((items c.assignments).filterMap assignment?)))])

/-- The texts of a DELETE; an empty condition is a missing one. -/
structure DeleteClauses where
  collection : List Char
  condition : List Char
  deriving DecidableEq, Repr

/-- The clauses of a DELETE. -/
def DeleteClauses.read? (s : List Char) : Option DeleteClauses := do
  let s ← keyword? "delete".toList s
  let s ← keywords? ["from"] s
  let (collection, s) ← run? (!isGap ·) s
  let condition ← condition? s
  return ⟨collection, condition⟩

/-- Compiles a DELETE. -/
def compileDelete (s : List Char) : Except Error Command :=
  match DeleteClauses.read? s with
  | none => .error (.malformed .delete none)
  | some c => .ok (.deleteMany (String.ofList c.collection) (optionalFilter c.condition))

end SqlToMongo.Statement
