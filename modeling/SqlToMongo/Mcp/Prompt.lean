import SqlToMongo.Converter.Supported
import SqlToMongo.Service.Basic
import SqlToMongo.Text.Blank

/-!
# The prompt

A text that shows an assistant a statement, what it is converted to, and how its clauses map.
-/

namespace SqlToMongo.Mcp

open Text

namespace Prompt

def name : String := "explain_conversion"

def description : String :=
  "Convert a SQL statement and return the MongoDB query together with notes on how each clause was mapped."

def toJson : Json :=
  .object
    [("name", .string name),
     ("description", .string description),
     ("arguments", .array [.object
        [("name", .string "sql"), ("description", .string "The SQL statement to convert"),
         ("required", .bool true)]])]

/-- Why there is no text. -/
inductive Error where
  | missingStatement
  | conversion (error : ConvertError)
  deriving DecidableEq, Repr

def Error.message : Error → String
  | missingStatement => "sql argument is required"
  | conversion e => "failed to convert: " ++ e.message

/-- A block of code. -/
def codeBlock (language code : String) : String :=
  "```" ++ language ++ "\n" ++ code ++ "\n```\n\n"

/-- The table of operators. -/
def operatorTable : String :=
  "| SQL | MongoDB |\n|-----|---------|\n" ++
    String.join (Supported.operators.map fun (sql, name) => "| `" ++ sql ++ "` | `" ++ name ++ "` |\n")

/-- How the clauses map. -/
def notes : String :=
  "- WHERE becomes the find filter or a `$match` stage\n" ++
  "- GROUP BY becomes a `$group` stage keyed on `_id`, HAVING a `$match` after it\n" ++
  "- ORDER BY becomes `sort` (1 ascending, -1 descending)\n" ++
  "- Condition values are kept as written: numbers in WHERE stay strings\n" ++
  "- INSERT and SET values are typed: numbers, booleans, null and strings\n"

/-- The text about a statement and its conversion. -/
def text (sql output : String) : String :=
  "# SQL to MongoDB\n\n" ++ codeBlock "sql" sql ++ codeBlock "javascript" output ++
    "## Mapping Rules\n\n" ++ operatorTable ++ "\n" ++ notes

/-- The description of the prompt for a statement, and its text. -/
def explain (s : Service) (now : Int) (sql : String) : Except Error (String × String) × Service :=
  if isAllBlank sql then (.error .missingStatement, s)
  else
    match s.convert now sql Format.shell.name with
    | (.error e, s) => (.error (.conversion e), s)
    | (.ok output, s) => (.ok ("Conversion of " ++ sql, text sql output), s)

end Prompt

end SqlToMongo.Mcp
