import SqlToMongo.Cli.Arguments
import SqlToMongo.Cli.Help

/-!
# Completing command lines

A shell asks how the last word of a line can go on: as the name of a command or of a flag. The answer
also says what the shell should do with files.
-/

namespace SqlToMongo.Cli

open Text

/-- What a shell does besides offering the choices. -/
inductive Directive where
  | offerFiles
  | offerNoFiles
  deriving DecidableEq, Repr

def Directive.code : Directive → Nat
  | offerFiles => 0
  | offerNoFiles => 4

/-- How a word can go on: words with what they mean. -/
structure Choices where
  words : List (String × String) := []
  directive : Directive := .offerFiles
  deriving DecidableEq, Repr

namespace LineCompletion

def startsWith (start word : String) : Bool := start.toList.isPrefixOf word.toList

/-- The flag of a name, or of a letter if the name is one. -/
def flag? (c : Command) (name : List Char) : Option Flag :=
  match name with
  | [letter] => c.allFlags.find? (·.letter == some letter)
  | name => c.allFlags.find? (·.name.toList == name)

/-- Whether a word is a flag with its name. -/
def isWholeFlag (word : String) : Bool :=
  match word.toList with
  | '-' :: '-' :: _ :: _ => true
  | '-' :: c :: _ => c != '-'
  | _ => false

/-- The name in a flag, or its last letter. -/
def flagName (flag : List Char) : List Char :=
  match flag with
  | '-' :: '-' :: name => name
  | letters => letters.drop (letters.length - 1)

/-- What is completed: the words before it, the word, and whether it is the value of a flag. -/
structure Target where
  before : List String
  word : String
  isValue : Bool := false

/-- The value of a flag of which only the name counts; a switch has none. `none` for an unknown flag. -/
def valueTarget? (c : Command) (before : List String) (word : String) : Option Target :=
  match before.getLast? with
  | some last =>
    if isWholeFlag last && !last.toList.contains '=' then
      (flag? c (flagName last.toList)).map fun flag =>
        if flag.isSwitch then ⟨before, word, false⟩ else ⟨before.dropLast, word, true⟩
    else some ⟨before, word, false⟩
  | none => some ⟨before, word, false⟩

/-- What the last word of a line is. `none` for the value of an unknown flag. -/
def target? (c : Command) (before : List String) (word : String) : Option Target :=
  if isFlag word then
    match cut? '=' word.toList with
    | none => some ⟨before, word, false⟩
    | some (flag, value) =>
      match flagName flag with
      | [] => valueTarget? c before (String.ofList value)
      | name => (flag? c name).map fun _ => ⟨before, String.ofList value, true⟩
  else valueTarget? c before word

/-- The spellings of a flag that begin with a text. -/
def flagChoices (start : String) (flag : Flag) : List (String × String) :=
  let spellings := ("--" ++ flag.name) ::
    (match flag.letter with
      | some letter => ["-" ++ letter.toString]
      | none => [])
  (spellings.filter (startsWith start)).map (·, flag.purpose)

/-- The flags that were not given, those of the program first. -/
def flagsLeft (c : Command) (given : List (String × String)) : List Flag :=
  let sorted (flags : List Flag) : List Flag := flags.mergeSort fun f g => f.name ≤ g.name
  let flags := match c with
    | .root => sorted c.allFlags
    | c => Command.sharedFlags ++ sorted (c.helpFlag :: c.ownFlags)
  flags.filter fun f => (given.lookup f.name).isNone

/-- The commands of a command that begin with a text. -/
def commandChoices (start : String) (c : Command) : List (String × String) :=
  (c.children.filter fun child => startsWith start child.name).map fun child =>
    (child.name, child.summary)

/-- How a word can go on that is neither a flag nor the value of one. -/
def wordChoices (c : Command) (arguments : List String) (start : String) : Choices :=
  let own : Choices :=
    if arguments.isEmpty && !c.children.isEmpty then ⟨commandChoices start c, .offerNoFiles⟩ else {}
  match c with
  | .help =>
    match findCommand Command.hidden arguments with
    | .ok (topic, _) => ⟨commandChoices start topic, .offerNoFiles⟩
    | .error _ => ⟨[], .offerNoFiles⟩
  | .completion | .completionFor _ => { own with directive := .offerNoFiles }
  | _ => own

/-- How the last word of a line can go on, of which the command is known. After two hyphens nothing is a
flag, and with the flag for help there is nothing to complete. -/
def choicesOf (c : Command) (before : List String) (word : String) : Choices :=
  let target := target? c before word
  let { before, word, isValue } := target.getD ⟨before, word, false⟩
  let read (words : List String) : Except ArgumentError Arguments :=
    readArguments c.allFlags words.length words {}
  match read before, read (before ++ ["--"]) with
  | .ok a, .ok ended =>
    let flagsEnded := a.rest.length < ended.rest.length
    if (target.isNone && !flagsEnded) || isValue then {}
    else if (a.given.lookup "help").isSome then ⟨[], .offerNoFiles⟩
    else if isFlag word && !word.toList.contains '=' && !flagsEnded then
      ⟨(flagsLeft c a.given).flatMap (flagChoices word), .offerNoFiles⟩
    else wordChoices c a.rest word
  | _, _ => {}

/-- How the last word of a line can go on. -/
def choices (line : List String) : Choices :=
  match findCommand Command.hidden line.dropLast with
  | .ok (c, before) =>
    let word := line.getLastD ""
    if Command.hidden.contains c then
      if isFlag word && !word.toList.contains '=' then
        ⟨Command.sharedFlags.flatMap (flagChoices word), .offerNoFiles⟩
      else {}
    else choicesOf c before word
  | .error _ => {}

/-- The answer to a shell, with or without what the words mean. -/
def answer (described : Bool) (line : List String) : String :=
  let c := choices line
  String.join (c.words.map fun (word, meaning) =>
    word ++ (if described && meaning ≠ "" then "\t" ++ meaning else "") ++ "\n") ++
    ":" ++ toString c.directive.code ++ "\n"

end LineCompletion

end SqlToMongo.Cli
