/-!
# Words of a command

Words are cut at spaces. Quotes keep spaces together, a backslash takes the next character as it is
outside single quotes, and a number sign at the beginning of a word starts a comment.
-/

namespace SqlToMongo.Cli.ShellWords

/-- Where in the text the reader is. -/
inductive State where
  | start
  | word
  | escaped
  | doubleQuoted
  | escapedInQuotes
  | singleQuoted
  | comment
  deriving DecidableEq, Repr

def isSpace (c : Char) : Bool := c == ' ' || c == '\t' || c == '\r' || c == '\n'

/-- The state in which a character outside quotes leaves the reader, and whether it belongs to the
word. -/
def enter (c : Char) : State × Bool :=
  if c = '"' then (.doubleQuoted, false)
  else if c = '\'' then (.singleQuoted, false)
  else if c = '\\' then (.escaped, false)
  else (.word, true)

/-- Reads on; `current` holds the characters of the word so far, the last one first. `none` when the
text ends inside quotes or after a backslash. -/
def readFrom : State → List Char → List Char → Option (List String)
  | .start, _, [] => some []
  | .comment, _, [] => some []
  | .word, current, [] => some [String.ofList current.reverse]
  | _, _, [] => none
  | .start, current, c :: rest =>
    if isSpace c then readFrom .start current rest
    else if c = '#' then readFrom .comment current rest
    else
      let (state, kept) := enter c
      readFrom state (if kept then [c] else []) rest
  | .word, current, c :: rest =>
    if isSpace c then (readFrom .start [] rest).map (String.ofList current.reverse :: ·)
    else
      let (state, kept) := enter c
      readFrom state (if kept then c :: current else current) rest
  | .escaped, current, c :: rest => readFrom .word (c :: current) rest
  | .escapedInQuotes, current, c :: rest => readFrom .doubleQuoted (c :: current) rest
  | .doubleQuoted, current, c :: rest =>
    if c = '"' then readFrom .word current rest
    else if c = '\\' then readFrom .escapedInQuotes current rest
    else readFrom .doubleQuoted (c :: current) rest
  | .singleQuoted, current, c :: rest =>
    if c = '\'' then readFrom .word current rest else readFrom .singleQuoted (c :: current) rest
  | .comment, current, c :: rest => readFrom (if c = '\n' then .start else .comment) current rest

/-- The words of a text. -/
def split? (text : String) : Option (List String) := readFrom .start [] text.toList

end SqlToMongo.Cli.ShellWords
