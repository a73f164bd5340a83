import SqlToMongo.Cli.Command
import SqlToMongo.Text.Display
import SqlToMongo.Text.LowerCase
import SqlToMongo.Text.Split
import SqlToMongo.Text.Utf8

/-!
# Arguments

A command line names a command, possibly a command of a command, and holds flags and further
arguments in any order.
-/

namespace SqlToMongo.Cli

open Text

/-! ### Finding the command -/

/-- Whether a flag without `=` is followed by its value: so is every flag that is not a known
switch. -/
def takesNext (flags : List Flag) (argument : List Char) : Bool :=
  !argument.contains '=' &&
    match argument with
    | '-' :: '-' :: name => !flags.any fun f => f.isSwitch && f.name.toList == name
    | ['-', letter] =>
      letter.toNat < 0x80 && !flags.any fun f => f.isSwitch && f.letter == some letter
    | _ => false

def isFlag (argument : String) : Bool := argument.toList.head? == some '-'

/-- The arguments that are no flags and no values of flags, up to two hyphens. -/
def withoutFlags (flags : List Flag) : List String → List String
  | [] => []
  | argument :: rest =>
    if argument = "--" then []
    else if takesNext flags argument.toList then
      -- A flag before the last argument takes that one, and nothing is left to look at.
      match rest with
      | _ :: next :: more => withoutFlags flags (next :: more)
      | _ => []
    else if argument ≠ "" ∧ ¬ isFlag argument then argument :: withoutFlags flags rest
    else withoutFlags flags rest

/-- The arguments without the first that is a given word and no flag or value of one. -/
def removeFirst (flags : List Flag) (word : String) : List String → List String
  | [] => []
  | argument :: rest =>
    if argument = "--" then argument :: rest
    else if takesNext flags argument.toList then
      match rest with
      | value :: rest => argument :: value :: removeFirst flags word rest
      | [] => [argument]
    else if argument = word ∧ ¬ isFlag argument then rest
    else argument :: removeFirst flags word rest

/-- The command that arguments name below a command, and the arguments left; commands are nested at
most as deep as `depth`. Some commands are not shown among the others. -/
def descend (hidden : List Command) : Nat → Command → List String → Command × List String
  | 0, c, arguments => (c, arguments)
  | depth + 1, c, arguments =>
    match withoutFlags c.flags arguments with
    | [] => (c, arguments)
    | first :: _ =>
      match (c.children ++ hidden.filter (·.parent? == some c)).find? (·.name == first) with
      | some child => descend hidden depth child (removeFirst c.flags first arguments)
      | none => (c, arguments)

/-! ### Suggestions -/

/-- One more row of the table of distances: `left` is the entry before, `corner` the one above that. -/
def distanceRow (c : UInt8) : List UInt8 → Nat → Nat → List Nat → List Nat
  | d :: word, left, corner, above :: row =>
    let entry := if c = d then corner else 1 + min corner (min left above)
    entry :: distanceRow c word entry above row
  | _, _, _, _ => []

/-- How many bytes must be added, removed or changed to turn one word into another. -/
def editDistance (s t : List UInt8) : Nat :=
  let first := List.range (t.length + 1)
  let last := s.foldl
    (fun row c =>
      match row with
      | corner :: above => (corner + 1) :: distanceRow c t (corner + 1) corner above
      | [] => [])
    first
  last.getLastD 0

/-- The commands that can be meant, in the order in which they are suggested. -/
def suggested : List Command :=
  [.convert, .demo, .repl, .serve, .mcp, .test, .version, .completion]

/-- The commands that a mistyped word may mean. -/
def suggestions (word : String) : List String :=
  let typed := lowered word
  (suggested.map Command.name).filter fun name =>
    editDistance (utf8 typed) (utf8 name) ≤ 2 || typed.toList.isPrefixOf name.toList

def suggestionText (word : String) : String :=
  match suggestions word with
  | [] => ""
  | names => "\n\nDid you mean this?\n" ++ String.join (names.map fun n => "\t" ++ n ++ "\n")

/-! ### Flags -/

/-- Why arguments are refused. -/
inductive ArgumentError where
  | unknownCommand (word path : String) (hint : String)
  | tooMany (most given : Nat)
  | tooFew (least given : Nat)
  | unknownFlag (name : String)
  | unknownLetter (first : Char) (letters : String)
  | missingValue (flag : String)
  | missingLetterValue (letter : Char) (letters : String)
  | badFlag (text : String)
  | badSwitch (flag : Flag) (value : String)
  deriving DecidableEq, Repr

/-- A character between single quotes. -/
def displayedChar (c : Char) : String :=
  if c = '\'' then "'\\''"
  else if c = '"' then "'\"'"
  else String.ofList ('\'' :: displayChar c ++ ['\''])

def ArgumentError.message : ArgumentError → String
  | unknownCommand word path hint =>
    "unknown command " ++ display word ++ " for " ++ display path ++ hint
  | tooMany most given =>
    "accepts at most " ++ toString most ++ " arg(s), received " ++ toString given
  | tooFew least given =>
    "requires at least " ++ toString least ++ " arg(s), only received " ++ toString given
  | unknownFlag name => "unknown flag: --" ++ name
  | unknownLetter first letters =>
    "unknown shorthand flag: " ++ displayedChar first ++ " in -" ++ letters
  | missingValue flag => "flag needs an argument: " ++ flag
  | missingLetterValue letter letters =>
    "flag needs an argument: " ++ displayedChar letter ++ " in -" ++ letters
  | badFlag text => "bad flag syntax: " ++ text
  | badSwitch flag value =>
    let shown := match flag.letter with
      | some letter => "-" ++ letter.toString ++ ", --" ++ flag.name
      | none => "--" ++ flag.name
    "invalid argument " ++ display value ++ " for " ++ display shown ++
      " flag: strconv.ParseBool: parsing " ++ display value ++ ": invalid syntax"

/-- The truth values of a switch. -/
def switchValue? (text : String) : Option Bool :=
  if ["1", "t", "T", "true", "TRUE", "True"].contains text then some true
  else if ["0", "f", "F", "false", "FALSE", "False"].contains text then some false
  else none

/-- The flags that were given, the last first, and the other arguments. -/
structure Arguments where
  given : List (String × String) := []
  rest : List String := []
  deriving DecidableEq, Repr

namespace Arguments

/-- The value of a flag, empty when it was not given. -/
def value (a : Arguments) (name : String) : String := (a.given.lookup name).getD ""

/-- The value of a flag that has a default. -/
def valueD (a : Arguments) (name default : String) : String := (a.given.lookup name).getD default

def isSet (a : Arguments) (name : String) : Bool := switchValue? (a.value name) == some true

/-- Gives a flag its value. -/
def set (a : Arguments) (flag : Flag) (value : String) : Except ArgumentError Arguments :=
  if flag.isSwitch && (switchValue? value).isNone then .error (.badSwitch flag value)
  else .ok { a with given := (flag.name, value) :: a.given }

end Arguments

/-- The first byte of a character as a character. -/
def firstByte (c : Char) : Char :=
  Char.ofNat (((utf8 c.toString).head?.getD 0).toNat)

/-- Reads the letters of an argument with one hyphen. A letter takes the letters behind it, or else
the next argument, as its value. Options of a test run are skipped. The result holds the arguments
that are left. -/
def readLetters (flags : List Flag) (next : List String) :
    List Char → Arguments → Except ArgumentError (Arguments × List String)
  | [], a => .ok (a, next)
  | 't' :: 'e' :: 's' :: 't' :: '.' :: _, a => .ok (a, next)
  | c :: rest, a =>
    match flags.find? (·.letter == some c) with
    | none => .error (.unknownLetter (firstByte c) (String.ofList (c :: rest)))
    | some flag =>
      match rest with
      | '=' :: v :: value => (a.set flag (String.ofList (v :: value))).map (·, next)
      | _ =>
        if flag.isSwitch then
          match a.set flag "true" with
          | .ok a => readLetters flags next rest a
          | .error e => .error e
        else
          match rest, next with
          | _ :: _, _ => (a.set flag (String.ofList rest)).map (·, next)
          | [], value :: next => (a.set flag value).map (·, next)
          | [], [] => .error (.missingLetterValue c (String.ofList [c]))

/-- Reads an argument with two hyphens. -/
def readLong (flags : List Flag) (next : List String) (text : List Char) (a : Arguments) :
    Except ArgumentError (Arguments × List String) :=
  match text.head? with
  | none | some '-' | some '=' => .error (.badFlag (String.ofList ('-' :: '-' :: text)))
  | _ =>
    let (name, value) := match cut? '=' text with
      | some (name, value) => (name, some (String.ofList value))
      | none => (text, none)
    match flags.find? (·.name.toList == name), value with
    | none, _ => .error (.unknownFlag (String.ofList name))
    | some flag, some value => (a.set flag value).map (·, next)
    | some flag, none =>
      if flag.isSwitch then (a.set flag "true").map (·, next)
      else
        match next with
        | value :: next => (a.set flag value).map (·, next)
        | [] => .error (.missingValue (String.ofList ('-' :: '-' :: text)))

/-- Reads flags and arguments in any order, one argument a step. -/
def readArguments (flags : List Flag) :
    Nat → List String → Arguments → Except ArgumentError Arguments
  | 0, _, a => .ok a
  | _, [], a => .ok a
  | steps + 1, argument :: next, a =>
    match argument.toList with
    | ['-', '-'] => .ok { a with rest := a.rest ++ next }
    | '-' :: '-' :: text =>
      match readLong flags next text a with
      | .ok (a, next) => readArguments flags steps next a
      | .error e => .error e
    | '-' :: c :: letters =>
      match readLetters flags next (c :: letters) a with
      | .ok (a, next) => readArguments flags steps next a
      | .error e => .error e
    | _ => readArguments flags steps next { a with rest := a.rest ++ [argument] }

/-- Checks the number of arguments. -/
def checkCount (c : Command) (arguments : List String) : Except ArgumentError Unit :=
  match c.argumentRule, arguments with
  | .none, word :: _ => .error (.unknownCommand word c.path "")
  | .atMost n, arguments =>
    if n < arguments.length then .error (.tooMany n arguments.length) else .ok ()
  | .atLeast n, arguments =>
    if arguments.length < n then .error (.tooFew n arguments.length) else .ok ()
  | _, _ => .ok ()

/-- The command that a line names, with the arguments left. Words that name none are wrong at the
root. -/
def findCommand (hidden : List Command) (line : List String) :
    Except ArgumentError (Command × List String) :=
  let (command, left) := descend hidden 3 .root line
  match command, withoutFlags command.flags left with
  | .root, word :: _ => .error (.unknownCommand word Command.root.path (suggestionText word))
  | command, _ => .ok (command, left)

/-- The command of a line with its flags and arguments. A hidden command takes all that follows it as
arguments. -/
def parseArguments (line : List String) : Except ArgumentError (Command × Arguments) := do
  let (command, left) ← findCommand Command.hidden line
  if Command.hidden.contains command then
    checkCount command left
    return (command, { rest := left })
  let arguments ← readArguments command.allFlags left.length left {}
  if command.isRunnable && !arguments.isSet "help" then checkCount command arguments.rest
  return (command, arguments)

end SqlToMongo.Cli
