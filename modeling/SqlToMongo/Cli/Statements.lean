import SqlToMongo.Converter.Basic
import SqlToMongo.Text.Split

/-!
# Files of statements

One statement a line; blank lines and comments are left out.
-/

namespace SqlToMongo.Cli

open Text

/-- Why a text holds no statements for us. -/
inductive StatementsError where
  | lineTooLong
  deriving DecidableEq, Repr

def StatementsError.message : StatementsError → String
  | lineTooLong => "bufio.Scanner: token too long"

/-- Lines have fewer bytes than this. -/
def maxLineSize : Nat := 1024 * 1024

/-- The statements of a text. -/
def readStatements (text : String) : Except StatementsError (List String) :=
  let lines := splitOn (· == '\n') text.toList
  if lines.any fun line => maxLineSize ≤ (String.ofList line).utf8ByteSize then .error .lineTooLong
  else .ok <| (lines.map trim).filterMap fun line =>
    if line.isEmpty || ['-', '-'].isPrefixOf line then none else some (String.ofList line)

/-- The text about one statement, and whether it failed. -/
def statementReport (c : Converter) (sql : String) : String × Bool × Converter :=
  match c.convert sql with
  | (.ok output, _, c) => ("// " ++ sql ++ "\n" ++ output ++ "\n", false, c)
  | (.error e, _, c) => ("// " ++ sql ++ "\n// error: " ++ e.message ++ "\n", true, c)

/-- The texts about statements, and the number of failures. -/
def reports (c : Converter) : List String → List String × Nat
  | [] => ([], 0)
  | sql :: rest =>
    let (report, failed, c) := statementReport c sql
    let (more, failures) := reports c rest
    (report :: more, failures + failed.toNat)

/-- Converts statements, telling of failures among the results; the second part is the error when
there were any. -/
def convertAll (c : Converter) (statements : List String) : String × Option String :=
  let (texts, failures) := reports c statements
  ("\n".intercalate texts,
    if failures = 0 then none
    else some (toString failures ++ " of " ++ toString statements.length ++ " statements failed"))

end SqlToMongo.Cli
