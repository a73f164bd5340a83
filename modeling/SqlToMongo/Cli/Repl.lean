import SqlToMongo.Cli.ShellWords
import SqlToMongo.Converter.Basic
import SqlToMongo.Converter.Supported
import SqlToMongo.Text.Display
import SqlToMongo.Text.Lines

/-!
# The interactive shell

A statement may take several lines; it ends with a semicolon or before an empty line. A line that
begins with a colon is a command to the shell.
-/

namespace SqlToMongo.Cli

open Text

structure Repl where
  converter : Converter
  format : Format
  deriving Repr

namespace Repl

/-- Converts a statement: what is printed, and the shell after it. -/
def convert (r : Repl) (sql : String) : String × Repl :=
  match r.converter.convertFormat sql r.format.name with
  | (.ok output, _, converter) => (output ++ "\n", { r with converter })
  | (.error e, _, converter) => ("Error: " ++ e.message ++ "\n", { r with converter })

/-- The lines about the supported SQL. -/
def supportedText : String :=
  String.join (Supported.statements.map fun s => "  " ++ s ++ "\n") ++
    String.join ((Supported.operators ++ Supported.aggregates).map fun (sql, name) =>
      "  " ++ padded 8 sql ++ " " ++ name ++ "\n")

def helpText : String :=
  "  :format [shell|command]  show or set the output format\n" ++
  "  :syntax                  list the supported SQL\n" ++
  "  :help                    show this help\n"

/-- Obeys a command. -/
def command (r : Repl) (input : String) : String × Repl :=
  match ShellWords.split? input with
  | none | some [] => ("Error: invalid command: " ++ input ++ "\n", r)
  | some (":format" :: arguments) =>
    match arguments with
    | [name] =>
      match Format.parse name with
      | .ok format => ("format: " ++ format.name ++ "\n", { r with format })
      | .error e => ("Error: " ++ e.message ++ "\n", r)
    | _ => ("format: " ++ r.format.name ++ "\n", r)
  | some (":syntax" :: _) => (supportedText, r)
  | some (":help" :: _) => (helpText, r)
  | some (name :: _) => ("Warning: unknown command " ++ name ++ ", try :help\n", r)

/-! ### A session -/

def greeting (version : String) : String :=
  "sql2mongo version " ++ version ++ "\nType 'exit' or Ctrl+D to quit, Tab completes keywords\n\n"

def prompt (pending : String) : String := if pending = "" then "sql> " else "...> "

/-- What a typed line makes of a session: what is printed, and the shell with the statement so far, or
nothing when the session is over. -/
def step (r : Repl) (pending line : String) : String × Option (Repl × String) :=
  let text := trimmed line
  if pending = "" ∧ (text = "exit" ∨ text = "quit") then ("", none)
  else if pending = "" ∧ text.toList.head? = some ':' then
    let (output, r) := r.command text
    (output, some (r, ""))
  else if pending = "" ∧ text = "" then ("", some (r, ""))
  else
    let statement :=
      if pending = "" then text else if text = "" then pending else pending ++ " " ++ text
    -- An empty line ends a statement, and so does a semicolon.
    if text ≠ "" ∧ text.toList.getLast? ≠ some ';' then ("", some (r, statement))
    else
      let (output, r) := r.convert statement
      (output, some (r, ""))

/-- What is printed for the lines that are typed; `pending` is the statement so far. -/
def session (r : Repl) (pending : String) : List String → String
  | [] => prompt pending ++ "\n"
  | line :: rest =>
    prompt pending ++
      match r.step pending line with
      | (output, none) => output
      | (output, some (r, pending)) => output ++ session r pending rest

/-- What is printed in a session. -/
def run (r : Repl) (version input : String) : String :=
  greeting version ++ r.session "" (typedLines input)

end Repl

end SqlToMongo.Cli
