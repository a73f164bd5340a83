import SqlToMongo.Config.Reader
import SqlToMongo.Json.Writer
import SqlToMongo.Log.Level
import SqlToMongo.Text.Blank

/-!
# Setting up

Which file of settings is used, and what an assistant's configuration must hold to run the program.
-/

namespace SqlToMongo.Cli

open Text

/-- The name of the environment: `dev` unless a variable says otherwise. -/
def environmentName (environment : Variables) : String :=
  match lowered (trimmed ((environment.get? "QC_ENV").getD "")) with
  | "" => "dev"
  | "production" => "prod"
  | name => name

/-- The file of settings in a directory. -/
def configFile (environment : Variables) (dir : String) : String :=
  Path.join dir (environmentName environment ++ ".yml")

/-- The configuration: that of the file, or the defaults where there is none. A log level given on the
command line counts more. `none` when something is wrong with it. -/
def setup? (files : Files) (environment : Variables) (dir logLevel : String) : Option Config := do
  let path := configFile environment dir
  let config ←
    (if files.contains path then Config.read files environment path
      else Config.ofVariables environment).toOption
  let config := if logLevel = "" then config else { config with logLevel }
  let _ ← (Log.Level.parse config.logLevel).toOption
  return config

/-- What a client of the Model Context Protocol must be configured with. -/
def clientConfig (appName executable dir : String) : Json :=
  .object [("mcpServers", .object
    [(if appName = "" then "sql2mongo" else appName, .object
      [("args", .array [.string "mcp", .string "--path", .string dir]),
       ("command", .string executable)])])]

/-- The configuration of a client as it is printed. -/
def clientConfigText (appName executable dir : String) : String :=
  (clientConfig appName executable dir).pretty Json.escapeMarkup "  " 0 ++ "\n"

end SqlToMongo.Cli
