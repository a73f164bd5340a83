import SqlToMongo.Cli.Program

/-!
# The program

Gathers what a command line can ask for, runs it, and prints what it says. A session is answered line
by line.
-/

namespace SqlToMongo

open Cli

/-- Reads a file, with the cause where that fails. -/
def readText (path : String) : IO (Except String String) := do
  try
    return .ok (← IO.FS.readFile path)
  catch e =>
    return .error ("open " ++ path ++ ": " ++ toString e)

/-- The variables that the program knows. -/
def readVariables : IO Variables := do
  let names := "QC_ENV" :: Config.settingNames.map fun (group, name) => Config.variableName group name
  let found ← names.filterMapM fun name => do return (← IO.getEnv name).map (name, ·)
  return .ofList found

/-- The files at some paths. -/
def readFiles (here : String) (paths : List String) : IO Files := do
  let texts ← paths.mapM fun path => do return (Path.clean path, ← readText path)
  return { here, read := fun path => (texts.lookup (Path.clean path)).getD (.error "not read") }

def printError (message : String) : IO Unit := do
  (← IO.getStderr).putStrLn ("Error: " ++ message)

/-- Prints a result; the answer is the program's exit code. -/
def printResult (result : Result) : IO UInt32 := do
  IO.print result.output
  match result.failure with
  | none => return 0
  | some .fatal => printError "the settings cannot be used"; return 1
  | some (.error message) => printError message; return 1
  | some .reported => return 1

/-- Answers typed lines until the session or the input is over. -/
partial def console (shell : Repl) (pending : String) : IO Unit := do
  IO.print (Repl.prompt pending)
  (← IO.getStdout).flush
  let line ← (← IO.getStdin).getLine
  if line.isEmpty then IO.println ""
  else
    let (output, next) := shell.step pending line
    IO.print output
    match next with
    | some (shell, pending) => console shell pending
    | none => return

/-- Answers messages until the input is over. -/
partial def assistant (service : Service) : IO Unit := do
  let line ← (← IO.getStdin).getLine
  if line.isEmpty then return
  let now := (← IO.monoMsNow) / 1000
  let (output, service) := answerMessage service now (line.dropEndWhile (· == '\n')).toString
  IO.print output
  (← IO.getStdout).flush
  assistant service

end SqlToMongo

open SqlToMongo Cli in
/-- A command line that is done is run once to see how long it takes and once more to tell. -/
def main (line : List String) : IO UInt32 := do
  let here := toString (← IO.currentDir)
  let executable := toString (← IO.appPath)
  let environment ← readVariables
  let known ← readFiles here (wantedFiles (.ofList here [] id) environment line)
  let files ← readFiles here (wantedFiles known environment line)
  let began ← IO.monoMsNow
  let world (milliseconds : String) : World :=
    { files, environment, executable, milliseconds
      context :=
        { now := began / 1000, duration := milliseconds ++ "ms"
          cause := "the text cannot be read" } }
  match start (world "0") line with
  | .done _ =>
    let spent := (← IO.monoMsNow) - began
    printResult (run (world (toString spent)) "" line)
  | .statement converter => printResult (convertStatement converter (← (← IO.getStdin).readToEnd))
  | .console shell =>
    IO.print (Repl.greeting Mcp.version)
    console shell ""
    return 0
  | .assistant service =>
    assistant service
    return 0
