import SqlToMongo.Cli.Arguments
import SqlToMongo.Cli.Check
import SqlToMongo.Cli.Demo
import SqlToMongo.Cli.Help
import SqlToMongo.Cli.LineCompletion
import SqlToMongo.Cli.Repl
import SqlToMongo.Cli.Setup
import SqlToMongo.Cli.ShellScript
import SqlToMongo.Cli.Statements
import SqlToMongo.Mcp.Protocol

/-!
# The command line

What a command line prints, as a function of what the program can see: its arguments, its files, its
environment and, for the commands that go on reading, its input.
-/

namespace SqlToMongo.Cli

open Text

/-- What the program sees. -/
structure World where
  files : Files
  environment : Variables
  /-- The path of the program itself. -/
  executable : String
  /-- How many milliseconds a conversion takes. -/
  milliseconds : String
  context : CheckContext

/-- How a command fails. -/
inductive Failure where
  /-- Something is wrong that no command can do without. -/
  | fatal
  | error (message : String)
  /-- The output tells what is wrong. -/
  | reported
  deriving DecidableEq, Repr

structure Result where
  output : String
  failure : Option Failure := none
  deriving DecidableEq, Repr

namespace Result

def fail (message : String) : Result := ⟨"", some (.error message)⟩

def fatal : Result := ⟨"", some .fatal⟩

end Result

/-- What a command line comes to: it is done, or it goes on with its input. -/
inductive Start where
  | done (result : Result)
  /-- The input is a statement to convert. -/
  | statement (converter : Converter)
  /-- The lines of the input are typed into the shell. -/
  | console (shell : Repl)
  /-- The lines of the input are the messages of an assistant. -/
  | assistant (service : Service)

/-- A converter for a command. -/
def converterFor (settings : List Setting) (use : Converter → Start) : Start :=
  match Converter.create settings with
  | .ok c => use c
  | .error e => .done (.fail e.message)

def convertStatement (c : Converter) (sql : String) : Result :=
  if isAllBlank sql then .fail "no SQL statement given"
  else
    match c.convert sql with
    | (.ok output, _) => ⟨output ++ "\n", none⟩
    | (.error e, _) => .fail e.message

def convertFile (files : Files) (c : Converter) (path : String) : Result :=
  match files.read path with
  | .error cause => .fail ("failed to open " ++ path ++ ": " ++ cause)
  | .ok text =>
    match readStatements text with
    | .error e => .fail e.message
    | .ok statements =>
      let (output, error) := convertAll c statements
      ⟨output, error.map .error⟩

def startConvert (w : World) (config : Config) (a : Arguments) : Start :=
  let format := if a.value "format" = "" then config.format else a.value "format"
  converterFor [.format format] fun c =>
    let file := a.value "file"
    if file ≠ "" then .done (convertFile w.files c file)
    else
      match a.rest with
      | sql :: _ => .done (convertStatement c sql)
      | [] => .statement c

def startDemo (w : World) (config : Config) (a : Arguments) : Start :=
  let file := a.value "file"
  match (if file = "" then .ok Demo.samples else Demo.read w.files file) with
  | .error e => .done (.fail (e.message w.context.cause))
  | .ok cases =>
    converterFor [.format config.format, .cacheSize 0] fun c =>
      .done ⟨(Demo.run w.milliseconds c cases).1, none⟩

def startRepl (config : Config) : Start :=
  match Format.parse config.format with
  | .error e => .done (.fail e.message)
  | .ok format => converterFor [] fun c => .console ⟨c, format⟩

def startMcp (w : World) (config : Config) : Start :=
  match Service.create config w.context.now with
  | .error e => .done (.fail ("failed to initialize service: " ++ e.message))
  | .ok s => .assistant s

def runCheck (w : World) (config : Config) (a : Arguments) : Result :=
  let result := CheckResult.ofConfig w.context config
  ⟨result.render (a.isSet "json") (a.isSet "verbose"),
    if result.success then none else some .reported⟩

/-- The help for the command that words name; nothing is printed where they name none. -/
def runHelp (words : List String) : Result :=
  match findCommand [] words with
  | .ok (command, _) => ⟨helpText command, none⟩
  | .error _ => ⟨"", none⟩

/-- The directory of the settings. -/
def configDir (a : Arguments) : String := a.valueD "path" "./config"

/-- Starts a command. -/
def startCommand (w : World) (command : Command) (a : Arguments) : Start :=
  let dir := configDir a
  let withConfig (run : Config → Start) : Start :=
    match setup? w.files w.environment dir (a.value "log-level") with
    | some config => run config
    | none => .done .fatal
  match command with
  | .root | .completion => .done ⟨helpText command, none⟩
  | .help => .done (runHelp a.rest)
  | .completionFor shell => .done ⟨script shell (!a.isSet "no-descriptions"), none⟩
  | .complete described => .done ⟨LineCompletion.answer described a.rest, none⟩
  | .version => .done ⟨"sql2mongo " ++ Mcp.version ++ "\n", none⟩
  | .convert => withConfig fun config => startConvert w config a
  | .demo => withConfig fun config => startDemo w config a
  | .repl => withConfig startRepl
  | .mcp => withConfig fun config => startMcp w config
  | .mcpInfo => withConfig fun config =>
    .done ⟨clientConfigText config.appName w.executable (Path.absolute w.files.here dir), none⟩
  | .test => withConfig fun config => .done (runCheck w config a)
  | .serve => withConfig fun config =>
    match Service.create config w.context.now with
    | .ok _ => .done (.fail "server failed: no network")
    | .error _ => .done .fatal

/-- Starts a command line. -/
def start (w : World) (line : List String) : Start :=
  match parseArguments line with
  | .error e => .done (.fail e.message)
  | .ok (command, a) =>
    if a.isSet "help" then .done ⟨helpText command, none⟩ else startCommand w command a

/-! ### The input -/

/-- What is printed for a message of an assistant, and the service after it. -/
def answerMessage (s : Service) (now : Int) (line : String) : String × Service :=
  match Mcp.handleLine s now line with
  | (some answer, s) => (answer.compact Json.escapeMarkup ++ "\n", s)
  | (none, s) => ("", s)

/-- What is printed for the messages of an assistant. -/
def answerMessages (now : Int) : Service → List String → String
  | _, [] => ""
  | s, line :: rest =>
    let (output, s) := answerMessage s now line
    output ++ answerMessages now s rest

/-- Goes on with the whole input at once. -/
def Start.finish (now : Int) (input : String) : Start → Result
  | done result => result
  | statement c => convertStatement c input
  | console shell => ⟨shell.run Mcp.version input, none⟩
  | assistant s => ⟨answerMessages now s (endedLines input), none⟩

/-- Runs a command line on an input. -/
def run (w : World) (input : String) (line : List String) : Result :=
  (start w line).finish w.context.now input

/-- The files that a command line can ask for, as far as those that are known tell. -/
def wantedFiles (files : Files) (environment : Variables) (line : List String) : List String :=
  match parseArguments line with
  | .error _ => []
  | .ok (_, a) =>
    let path := configFile environment (configDir a)
    path :: Config.parentPaths files environment path ++
      (if a.value "file" = "" then [] else [a.value "file"])

end SqlToMongo.Cli
