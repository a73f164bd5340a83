import SqlToMongo.Mongo.CommandDocument
import SqlToMongo.Mongo.Shell
import SqlToMongo.Statement.Compile
import SqlToMongo.Text.Display

/-!
# Output formats
-/

namespace SqlToMongo

open Mongo Text

inductive Format where
  /-- A call in the mongo shell. -/
  | shell
  /-- The command document as Extended JSON. -/
  | command
  deriving DecidableEq, Inhabited, Repr

/-- Why a conversion failed. -/
inductive ConvertError where
  | statement (error : Statement.Error)
  | unknownFormat (name : String)
  deriving DecidableEq, Repr

def ConvertError.message : ConvertError → String
  | .statement error => error.message
  | .unknownFormat name => "unknown output format: " ++ display name

namespace Format

def name : Format → String
  | shell => "shell"
  | command => "command"

/-- The format of an exact name. No name is the shell format. -/
def ofName (name : String) : Except ConvertError Format :=
  if name = "shell" ∨ name = "" then .ok shell
  else if name = "command" then .ok command
  else .error (.unknownFormat name)

/-- The format of a name in any case, blanks around it apart. -/
def parse (name : String) : Except ConvertError Format :=
  match ofName (lowered (trimmed name)) with
  | .ok format => .ok format
  | .error _ => .error (.unknownFormat name)

/-- A command in a format. -/
def render : Format → Command → String
  | shell, c => Shell.render c
  | command, c => ExtendedJson.render c.toDocument

end Format

/-- Compiles a statement. -/
def compile (sql : String) : Except ConvertError Command :=
  (Statement.compile sql).mapError .statement

/-- Writes a command in the format of a name. -/
def render (c : Command) (format : String) : Except ConvertError String :=
  (Format.ofName format).map (·.render c)

/-- The statement in the format of a name. A statement that is refused is refused in any format,
known or not. -/
def convert (sql format : String) : Except ConvertError String := do
  render (← compile sql) format

end SqlToMongo
