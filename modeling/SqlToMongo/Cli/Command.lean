/-!
# Commands

The commands of the program, with the flags and the arguments that each of them takes.
-/

namespace SqlToMongo.Cli

/-- The shells that can be taught to complete command lines. -/
inductive Shell where
  | bash
  | fish
  | powershell
  | zsh
  deriving DecidableEq, Repr

def Shell.name : Shell → String
  | bash => "bash"
  | fish => "fish"
  | powershell => "powershell"
  | zsh => "zsh"

inductive Command where
  | root
  | convert
  | demo
  | repl
  | serve
  | mcp
  | mcpInfo
  | test
  | version
  | help
  | completion
  /-- Prints what teaches a shell. -/
  | completionFor (shell : Shell)
  /-- Answers a shell that completes a command line, with or without what the words mean. -/
  | complete (described : Bool)
  deriving DecidableEq, Repr

/-- A flag: its name, its letter, and whether it is a switch, which needs no value. -/
structure Flag where
  name : String
  letter : Option Char := none
  isSwitch : Bool := false
  /-- What it is for. -/
  purpose : String
  default : String := ""
  deriving DecidableEq, Repr

/-- How many arguments a command takes. -/
inductive ArgumentRule where
  | any
  | atMost (n : Nat)
  | atLeast (n : Nat)
  | none
  deriving DecidableEq, Repr

namespace Command

def name : Command → String
  | root => "sql2mongo"
  | convert => "convert"
  | demo => "demo"
  | repl => "repl"
  | serve => "serve"
  | mcp => "mcp"
  | mcpInfo => "info"
  | test => "test"
  | version => "version"
  | help => "help"
  | completion => "completion"
  | completionFor shell => shell.name
  | complete true => "__complete"
  | complete false => "__completeNoDesc"

/-- The command that a command belongs to. -/
def parent? : Command → Option Command
  | root => none
  | mcpInfo => some mcp
  | completionFor _ => some completion
  | _ => some root

/-- The command with those that lead to it. -/
def path : Command → String
  | root => root.name
  | mcpInfo => root.name ++ " " ++ mcp.name ++ " " ++ mcpInfo.name
  | completionFor shell => root.name ++ " " ++ completion.name ++ " " ++ shell.name
  | c => root.name ++ " " ++ c.name

/-- The commands of a command, in alphabetical order. -/
def children : Command → List Command
  | root => [completion, convert, demo, help, mcp, repl, serve, test, version]
  | mcp => [mcpInfo]
  | completion =>
    [completionFor .bash, completionFor .fish, completionFor .powershell, completionFor .zsh]
  | _ => []

/-- The commands that are for programs and not shown. -/
def hidden : List Command := [complete true, complete false]

/-- The flags of the program, which every command has. -/
def sharedFlags : List Flag :=
  [{ name := "log-level", purpose := "log level: debug, info, warn, error" },
   { name := "path", purpose := "path to config files", default := "./config" }]

/-- The switch that asks for help. -/
def helpFlag (c : Command) : Flag :=
  { name := "help", letter := some 'h', isSwitch := true, purpose := "help for " ++ c.name }

/-- The flags that only a command itself has, apart from the one for help, in alphabetical order. -/
def ownFlags : Command → List Flag
  | convert =>
    [{ name := "file", purpose := "file with one statement per line" },
     { name := "format", letter := some 'f', purpose := "output format: shell or command" }]
  | demo => [{ name := "file", purpose := "YAML file with demo statements" }]
  | test =>
    [{ name := "json", isSwitch := true, purpose := "Output results in JSON format" },
     { name := "verbose", letter := some 'v', isSwitch := true,
       purpose := "Show detailed output for each service" }]
  | completionFor _ =>
    [{ name := "no-descriptions", isSwitch := true, purpose := "disable completion descriptions" }]
  | _ => []

/-- The flags of a command that are known while the command is looked for. -/
def flags (c : Command) : List Flag := c.ownFlags ++ sharedFlags

/-- All flags of a command. -/
def allFlags (c : Command) : List Flag := c.helpFlag :: c.flags

def argumentRule : Command → ArgumentRule
  | convert => .atMost 1
  | demo | repl | serve | completion | completionFor _ => .none
  | complete _ => .atLeast 1
  | _ => .any

/-- Whether a command does something itself. -/
def isRunnable : Command → Bool
  | root | completion => false
  | _ => true

end Command

end SqlToMongo.Cli
