import SqlToMongo.Cli.Command
import SqlToMongo.Text.Blank
import SqlToMongo.Text.Display

/-!
# Help

What a command is for, how it is called, its commands and its flags.
-/

namespace SqlToMongo.Cli

open Text

namespace Command

/-- What a command does, in a few words. -/
def summary : Command → String
  | root => "Convert SQL statements into MongoDB queries"
  | convert => "Convert a SQL statement"
  | demo => "Convert a list of sample statements"
  | repl => "Convert statements interactively"
  | serve => "Run the HTTP service"
  | mcp => "Run MCP server in stdio mode (for Claude Desktop)"
  | mcpInfo => "Show Claude Desktop configuration"
  | test => "Validate config and test connectivity to all services"
  | version => "Print the version"
  | help => "Help about any command"
  | completion => "Generate the autocompletion script for the specified shell"
  | completionFor shell => "Generate the autocompletion script for " ++ shell.name
  | complete _ => "Request shell completion choices for the specified command-line"

/-- How a shell is taught to complete command lines. -/
def shellDescription : Shell → List String
  | .bash =>
    ["Generate the autocompletion script for the bash shell.",
     "",
     "This script depends on the 'bash-completion' package.",
     "If it is not installed already, you can install it via your OS's package manager.",
     "",
     "To load completions in your current shell session:",
     "",
     "\tsource <(sql2mongo completion bash)",
     "",
     "To load completions for every new session, execute once:",
     "",
     "#### Linux:",
     "",
     "\tsql2mongo completion bash > /etc/bash_completion.d/sql2mongo",
     "",
     "#### macOS:",
     "",
     "\tsql2mongo completion bash > $(brew --prefix)/etc/bash_completion.d/sql2mongo",
     "",
     "You will need to start a new shell for this setup to take effect."]
  | .fish =>
    ["Generate the autocompletion script for the fish shell.",
     "",
     "To load completions in your current shell session:",
     "",
     "\tsql2mongo completion fish | source",
     "",
     "To load completions for every new session, execute once:",
     "",
     "\tsql2mongo completion fish > ~/.config/fish/completions/sql2mongo.fish",
     "",
     "You will need to start a new shell for this setup to take effect."]
  | .powershell =>
    ["Generate the autocompletion script for powershell.",
     "",
     "To load completions in your current shell session:",
     "",
     "\tsql2mongo completion powershell | Out-String | Invoke-Expression",
     "",
     "To load completions for every new session, add the output of the above command",
     "to your powershell profile."]
  | .zsh =>
    ["Generate the autocompletion script for the zsh shell.",
     "",
     "If shell completion is not already enabled in your environment you will need",
     "to enable it.  You can execute the following once:",
     "",
     "\techo \"autoload -U compinit; compinit\" >> ~/.zshrc",
     "",
     "To load completions in your current shell session:",
     "",
     "\tsource <(sql2mongo completion zsh)",
     "",
     "To load completions for every new session, execute once:",
     "",
     "#### Linux:",
     "",
     "\tsql2mongo completion zsh > \"$\x7bfpath[1]\x7d/_sql2mongo\"",
     "",
     "#### macOS:",
     "",
     "\tsql2mongo completion zsh > $(brew --prefix)/share/zsh/site-functions/_sql2mongo",
     "",
     "You will need to start a new shell for this setup to take effect."]

/-- What a command does, in lines. -/
def description : Command → List String
  | convert =>
    ["Convert a SQL statement into a MongoDB query.",
     "",
     "The statement is read from the argument, or from stdin when no argument is",
     "given. With --file every line of the file is converted on its own; blank",
     "lines and lines starting with '--' are skipped.",
     "",
     "Examples:",
     "  sql2mongo convert \"SELECT * FROM usuarios WHERE id = 1\"",
     "  echo \"DELETE FROM logs\" | sql2mongo convert --format command",
     "  sql2mongo convert --file queries.sql"]
  | demo =>
    ["Convert a list of sample statements and print each result with the",
     "time the conversion took.",
     "",
     "Without --file the built-in samples are used. A demo file is a YAML list:",
     "",
     "  - name: SELECT",
     "    sql: SELECT * FROM usuarios",
     "  - name: DELETE",
     "    sql: DELETE FROM clientes WHERE id = 42"]
  | repl =>
    ["Start an interactive shell that converts each statement as it is entered.",
     "",
     "A statement may span several lines and ends at a line ending with ';' or at",
     "an empty line. Type ':format shell' or ':format command' to switch the",
     "output format, 'exit' or Ctrl+D to quit."]
  | serve =>
    ["Run the HTTP conversion service.",
     "",
     "Routes:",
     "  GET  /health                 liveness check",
     "  POST /api/v1/convert         \x7b\"sql\": \"...\", \"format\": \"shell|command\"\x7d",
     "  POST /api/v1/convert/batch   \x7b\"statements\": [\"...\"], \"format\": \"...\"\x7d",
     "  GET  /api/v1/syntax          supported SQL",
     "  GET  /sse, POST /message     MCP over SSE, unless mcp.disable is set"]
  | mcp =>
    ["Run the sql2mongo MCP server using stdio transport.",
     "",
     "Designed for AI assistant integration (Claude Desktop, etc.).",
     "Communicates via stdin/stdout using the MCP protocol.",
     "",
     "Tools:",
     "  list_sql_syntax     the supported SQL",
     "  convert_sql         convert one statement",
     "  convert_sql_batch   convert several statements"]
  | mcpInfo =>
    ["Display the Claude Desktop MCP configuration for this install.",
     "",
     "Outputs JSON configuration that can be added to your Claude Desktop config file."]
  | test =>
    ["Validate configuration and test connectivity to all configured services:",
     "- Redis cache (if configured)",
     "- The converter, by converting one statement of every kind",
     "",
     "Exit codes:",
     "  0 - All services validated successfully",
     "  1 - Configuration or service connection failed"]
  | help =>
    ["Help provides help for any command in the application.",
     "Simply type sql2mongo help [path to command] for full details."]
  | completion =>
    ["Generate the autocompletion script for sql2mongo for the specified shell.",
     "See each sub-command's help for details on how to use the generated script."]
  | completionFor shell => shellDescription shell
  | complete _ =>
    ["__complete is a special command that is used by the shell completion logic",
     "to request completion choices for the specified command-line."]
  | c => [c.summary]

/-- What a line with a command looks like. -/
def usage : Command → String
  | convert => convert.path ++ " [sql] [flags]"
  | help => help.path ++ " [command] [flags]"
  | completionFor .bash => (completionFor .bash).path
  | c => c.path ++ " [flags]"

end Command

/-- The width of the names in a list of commands. -/
def commandWidth : Nat := 11

/-- A flag as it is written, with the kind of its value. -/
def Flag.heading (f : Flag) : String :=
  (match f.letter with
    | some letter => "  -" ++ letter.toString ++ ", --"
    | none => "      --") ++
    f.name ++ if f.isSwitch then "" else " string"

/-- The lines about flags, with their purposes in one column. -/
def flagLines (flags : List Flag) : List String :=
  let flags := flags.mergeSort fun f g => f.name ≤ g.name
  let width := (flags.map (·.heading.length)).foldl max 0
  flags.map fun f =>
    padded width f.heading ++ "   " ++ f.purpose ++
      if f.default = "" then "" else " (default " ++ display f.default ++ ")"

/-- How a command is called, its commands and its flags. -/
def usageLines (c : Command) : List String :=
  ["Usage:"] ++
    (if c.isRunnable then ["  " ++ c.usage] else []) ++
    (if c.children.isEmpty then [] else
      ["  " ++ c.path ++ " [command]", "", "Available Commands:"] ++
        c.children.map fun child => "  " ++ padded commandWidth child.name ++ " " ++ child.summary) ++
    ["", "Flags:"] ++
    (if c = .root then flagLines c.allFlags
      else flagLines (c.helpFlag :: c.ownFlags) ++ ["", "Global Flags:"] ++
        flagLines Command.sharedFlags) ++
    if c.children.isEmpty then [] else
      ["", "Use \"" ++ c.path ++ " [command] --help\" for more information about a command."]

/-- The help for a command. -/
def helpText (c : Command) : String :=
  String.join ((c.description ++ [""] ++ usageLines c).map (· ++ "\n"))

end SqlToMongo.Cli
