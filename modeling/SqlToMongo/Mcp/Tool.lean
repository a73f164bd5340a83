import SqlToMongo.Converter.Supported
import SqlToMongo.Json.Writer
import SqlToMongo.Service.Basic
import SqlToMongo.Text.Blank

/-!
# Tools

What an assistant can call through the Model Context Protocol: the supported SQL, one conversion, or
several.
-/

namespace SqlToMongo.Mcp

open Text

inductive Tool where
  | listSyntax
  | convert
  | convertBatch
  deriving DecidableEq, Repr

/-- What a call gives: a text, which may tell a failure. -/
structure ToolResult where
  failed : Bool
  text : String
  deriving DecidableEq, Repr

namespace ToolResult

def success (text : String) : ToolResult := ⟨false, text⟩

def failure (text : String) : ToolResult := ⟨true, text⟩

/-- A value over several lines. -/
def json (value : Json) : ToolResult := success (value.pretty Json.escapeMarkup "  " 0)

end ToolResult

namespace Tool

/-- The tools in the order of their names. -/
def all : List Tool := [convert, convertBatch, listSyntax]

def name : Tool → String
  | listSyntax => "list_sql_syntax"
  | convert => "convert_sql"
  | convertBatch => "convert_sql_batch"

def ofName? (name : String) : Option Tool := all.find? (·.name == name)

def description : Tool → String
  | listSyntax => "List the SQL statements, comparison operators and aggregate functions the converter understands. Call this before convert_sql."
  | convert => "Convert a SQL statement (SELECT, INSERT, UPDATE or DELETE) into MongoDB query text. Nothing is executed."
  | convertBatch => "Convert several SQL statements. Each statement succeeds or fails on its own."

/-- A parameter of type string, with what describes it. -/
def textParameter (description : String) (more : List (String × Json)) : Json :=
  .object ([("description", .string description)] ++ more ++ [("type", .string "string")])

/-- A parameter that names a format. -/
def formatParameter (description : String) : Json :=
  textParameter description [("enum", .array [.string "shell", .string "command"])]

/-- The parameters by name, and those that a call must have. -/
def parameters : Tool → List (String × Json) × List String
  | listSyntax => ([], [])
  | convert =>
    ([("format", formatParameter "Output format: 'shell' for mongo shell calls (default) or 'command' for the database command as Extended JSON"),
      ("sql", textParameter "The SQL statement to convert" [])], ["sql"])
  | convertBatch =>
    ([("format", formatParameter "Output format: 'shell' (default) or 'command'"),
      ("statements", .object
        [("description", .string "The SQL statements to convert"),
         ("items", .object [("type", .string "string")]), ("type", .string "array")])],
     ["statements"])

/-- The tool as clients are told of it. -/
def toJson (t : Tool) : Json :=
  let (properties, required) := t.parameters
  .object
    [("annotations", .object
        [("readOnlyHint", .bool false), ("destructiveHint", .bool true),
         ("idempotentHint", .bool false), ("openWorldHint", .bool true)]),
     ("description", .string t.description),
     ("inputSchema", .object <|
        [("properties", Json.object properties)] ++
        (if required.isEmpty then [] else [("required", .array (required.map .string))]) ++
        [("type", .string "object")]),
     ("name", .string t.name)]

/-- Converts the statement of a call. -/
def callConvert (s : Service) (now : Int) (arguments : Json) : ToolResult × Service :=
  let sql := arguments.text "sql"
  if isAllBlank sql then (.failure "sql is required", s)
  else
    match s.convert now sql (arguments.text "format") with
    | (.ok text, s) => (.success text, s)
    | (.error e, s) => (.failure (e.kindName ++ ": " ++ e.message), s)

/-- The texts of a list; the error is the place of the first item that is none. -/
def texts : Nat → List Json → Except Nat (List String)
  | _, [] => .ok []
  | i, .string s :: rest => (texts (i + 1) rest).map (s :: ·)
  | i, _ :: _ => .error i

/-- Converts the statements of a call. -/
def callBatch (s : Service) (now : Int) (arguments : Json) : ToolResult × Service :=
  match arguments.member? "statements" with
  | some (.array (item :: items)) =>
    match texts 0 (item :: items) with
    | .error i => (.failure ("statement " ++ toString i ++ " is not a string"), s)
    | .ok statements =>
      match s.batch now statements (arguments.text "format") false with
      | (.error e, s) => (.failure e.message, s)
      | (.ok results, s) => (.json (.array (results.map Service.BatchResult.toJson)), s)
  | _ => (.failure "statements must be a non-empty array", s)

/-- Calls a tool at a moment. -/
def call (s : Service) (now : Int) (arguments : Json) : Tool → ToolResult × Service
  | listSyntax => (.json Supported.toJson, s)
  | convert => callConvert s now arguments
  | convertBatch => callBatch s now arguments

end Tool

end SqlToMongo.Mcp
