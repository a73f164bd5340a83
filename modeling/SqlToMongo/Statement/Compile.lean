import SqlToMongo.Sql.Layout
import SqlToMongo.Statement.Insert
import SqlToMongo.Statement.Update

/-!
# Compiling a statement

A statement is brought to its canonical layout, and its first letters choose the compiler.
-/

namespace SqlToMongo.Statement

open Mongo Sql Text

/-- The kind of statement that the first six characters of a text name. -/
def kind? (s : List Char) : Option Kind :=
  match String.ofList (lowerAll (s.take 6)) with
  | "select" => some .select
  | "insert" => some .insert
  | "update" => some .update
  | "delete" => some .delete
  | _ => none

/-- The compiler of a kind of statement, for a text in canonical layout. -/
def Kind.compile : Kind → List Char → Except Error Command
  | .select => compileSelect
  | .insert => compileInsert
  | .update => compileUpdate
  | .delete => compileDelete

/-- Compiles a statement. -/
def compile (sql : String) : Except Error Command :=
  let s := normalize sql.toList
  match kind? s with
  | some kind => kind.compile s
  | none => .error .unsupported

end SqlToMongo.Statement
