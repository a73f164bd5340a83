import SqlToMongo.Text.Blank
import SqlToMongo.Text.Display
import SqlToMongo.Text.LowerCase

/-!
# Log levels
-/

namespace SqlToMongo.Log

open Text

inductive Level where
  | debug
  | info
  | warn
  | error
  | dpanic
  | panic
  | fatal
  deriving DecidableEq, Repr

namespace Level

/-- The levels, the least first. -/
def all : List Level := [debug, info, warn, error, dpanic, panic, fatal]

def name : Level → String
  | debug => "debug"
  | info => "info"
  | warn => "warn"
  | error => "error"
  | dpanic => "dpanic"
  | panic => "panic"
  | fatal => "fatal"

/-- The place of a level in their order. -/
def rank (level : Level) : Nat := all.idxOf level

def ofName? (name : String) : Option Level := all.find? (·.name == name)

/-- The level of a setting. None is `info`, and `none` and `off` leave only the fatal level; blanks
around these do not count. Other names are taken in any case; the error is the message. -/
def parse (text : String) : Except String Level :=
  match lowered (trimmed text) with
  | "" => .ok info
  | "none" | "off" => .ok fatal
  | _ =>
    match ofName? (lowered text) with
    | some level => .ok level
    | none => .error ("invalid log level: unrecognized level: " ++ display text)

end Level

end SqlToMongo.Log
