import SqlToMongo.Json.Basic
import SqlToMongo.Text.Hex

/-!
# Writing JSON

One printer for compact and for indented text. What is escaped inside strings is a parameter: each
output of the program has its own rule.
-/

namespace SqlToMongo.Json

open Text

/-- How a character is written inside a string. -/
abbrev Escape := Char → List Char

/-- A character as `\u` and four hexadecimal digits. -/
def unicodeEscape (c : Char) : List Char :=
  '\\' :: 'u' :: Hex.padded 4 c.toNat

/-- Quotes, backslashes, LF, CR and TAB have short escapes; other control characters have
hexadecimal ones. -/
def escapeControls : Escape := fun c =>
  if c = '"' then ['\\', '"']
  else if c = '\\' then ['\\', '\\']
  else if c = '\n' then ['\\', 'n']
  else if c = '\r' then ['\\', 'r']
  else if c = '\t' then ['\\', 't']
  else if c.toNat < 0x20 then unicodeEscape c
  else [c]

/-- As `escapeControls`, with short escapes for BS and FF too, and the two line separators of
Unicode escaped. -/
def escapeSeparators : Escape := fun c =>
  if c = '\x08' then ['\\', 'b']
  else if c = '\x0c' then ['\\', 'f']
  else if c = '\u2028' || c = '\u2029' then unicodeEscape c
  else escapeControls c

/-- As `escapeSeparators`, with the characters escaped that markup gives a meaning. -/
def escapeMarkup : Escape := fun c =>
  if c = '<' || c = '>' || c = '&' then unicodeEscape c else escapeSeparators c

/-- The text of a string, without its quotes. -/
def escaped (escape : Escape) (s : String) : String :=
  String.ofList (s.toList.flatMap escape)

/-- A string between its quotes. -/
def quotedString (escape : Escape) (s : String) : String :=
  "\"" ++ escaped escape s ++ "\""

mutual

/-- A value on one line, without spaces. -/
def compact (escape : Escape) : Json → String
  | .null => "null"
  | .bool b => if b then "true" else "false"
  | .number text => text
  | .string s => quotedString escape s
  | .array items => "[" ++ ",".intercalate (compactItems escape items) ++ "]"
  | .object members => "\x7b" ++ ",".intercalate (compactMembers escape members) ++ "\x7d"

def compactItems (escape : Escape) : List Json → List String
  | [] => []
  | item :: rest => compact escape item :: compactItems escape rest

def compactMembers (escape : Escape) : List (String × Json) → List String
  | [] => []
  | (name, value) :: rest =>
    (quotedString escape name ++ ":" ++ compact escape value) :: compactMembers escape rest

end

/-- Lines between two brackets, one deeper than the brackets; nothing between them stays on the
brackets' line. -/
def block (indent : String) (depth : Nat) (opening closing : String) : List String → String
  | [] => opening ++ closing
  | lines =>
    let inner := String.join (List.replicate (depth + 1) indent)
    let outer := String.join (List.replicate depth indent)
    opening ++ "\n" ++ ",\n".intercalate (lines.map (inner ++ ·)) ++ "\n" ++ outer ++ closing

mutual

/-- A value with each item and member on a line of its own. -/
def pretty (escape : Escape) (indent : String) (depth : Nat) : Json → String
  | .null => "null"
  | .bool b => if b then "true" else "false"
  | .number text => text
  | .string s => quotedString escape s
  | .array items => block indent depth "[" "]" (prettyItems escape indent (depth + 1) items)
  | .object members =>
    block indent depth "\x7b" "\x7d" (prettyMembers escape indent (depth + 1) members)

def prettyItems (escape : Escape) (indent : String) (depth : Nat) : List Json → List String
  | [] => []
  | item :: rest => pretty escape indent depth item :: prettyItems escape indent depth rest

def prettyMembers (escape : Escape) (indent : String) (depth : Nat) :
    List (String × Json) → List String
  | [] => []
  | (name, value) :: rest =>
    (quotedString escape name ++ ": " ++ pretty escape indent depth value) ::
      prettyMembers escape indent depth rest

end

end SqlToMongo.Json
