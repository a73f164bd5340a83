import SqlToMongo.Json.Basic
import SqlToMongo.Text.Hex

/-!
# Reading JSON

The grammar of RFC 8259, read from the front of a text. An escaped surrogate without its partner
stands for the replacement character.
-/

namespace SqlToMongo.Json

open Text

/-- Space, TAB, LF and CR. -/
def isSpace (c : Char) : Bool :=
  c == ' ' || c == '\t' || c == '\n' || c == '\r'

def skipSpace (s : List Char) : List Char :=
  s.dropWhile isSpace

/-- The replacement character. -/
def replacement : Char := '\ufffd'

/-- The code unit in four hexadecimal digits. -/
def codeUnit? : List Char → Option (Nat × List Char)
  | a :: b :: c :: d :: rest => (Hex.read? [a, b, c, d]).map (·, rest)
  | _ => none

def isHighSurrogate (n : Nat) : Bool := 0xD800 ≤ n && n < 0xDC00

def isLowSurrogate (n : Nat) : Bool := 0xDC00 ≤ n && n < 0xE000

/-- The low surrogate that follows, escaped. -/
def lowSurrogate? : List Char → Option (Nat × List Char)
  | '\\' :: 'u' :: rest =>
    match codeUnit? rest with
    | some (n, rest) => if isLowSurrogate n then some (n, rest) else none
    | none => none
  | _ => none

/-- The character of an escape, after its backslash. -/
def escape? : List Char → Option (Char × List Char)
  | 'u' :: rest =>
    match codeUnit? rest with
    | none => none
    | some (n, rest) =>
      if isHighSurrogate n then
        match lowSurrogate? rest with
        | some (low, rest) => some (Char.ofNat (0x10000 + (n - 0xD800) * 0x400 + (low - 0xDC00)), rest)
        | none => some (replacement, rest)
      else if isLowSurrogate n then some (replacement, rest)
      else some (Char.ofNat n, rest)
  | c :: rest =>
    if c == '"' || c == '\\' || c == '/' then some (c, rest)
    else ([('b', '\x08'), ('f', '\x0c'), ('n', '\n'), ('r', '\r'), ('t', '\t')].lookup c).map (·, rest)
  | [] => none

/-- The rest of a string after its first quote; `read` holds its characters so far, the last one
first. Each step takes a character of the text. -/
def stringTail : Nat → List Char → List Char → Option (String × List Char)
  | 0, _, _ => none
  | _, _, [] => none
  | steps + 1, read, c :: rest =>
    if c = '"' then some (String.ofList read.reverse, rest)
    else if c = '\\' then
      match escape? rest with
      | some (c, rest) => stringTail steps (c :: read) rest
      | none => none
    else if c.toNat < 0x20 then none
    else stringTail steps (c :: read) rest

/-- Digits, at least one. -/
def digits? (s : List Char) : Option (List Char × List Char) :=
  match s.takeWhile Char.isDigit with
  | [] => none
  | ds => some (ds, s.dropWhile Char.isDigit)

/-- The digits before the point: a zero stands alone. -/
def whole? : List Char → Option (List Char × List Char)
  | '0' :: rest => some (['0'], rest)
  | s => digits? s

/-- The point and the digits after it, if there is a point. -/
def fraction? : List Char → Option (List Char × List Char)
  | '.' :: rest => (digits? rest).map fun (ds, rest) => ('.' :: ds, rest)
  | s => some ([], s)

/-- The exponent, if there is one. -/
def exponent? : List Char → Option (List Char × List Char)
  | c :: rest =>
    if c = 'e' ∨ c = 'E' then
      let (sign, rest) := match rest with
        | '+' :: rest => (['+'], rest)
        | '-' :: rest => (['-'], rest)
        | rest => ([], rest)
      (digits? rest).map fun (ds, rest) => (c :: sign ++ ds, rest)
    else some ([], c :: rest)
  | [] => some ([], [])

/-- A number as it is written. -/
def number? (s : List Char) : Option (String × List Char) := do
  let (sign, s) := match s with
    | '-' :: rest => (['-'], rest)
    | s => ([], s)
  let (whole, s) ← whole? s
  let (fraction, s) ← fraction? s
  let (exponent, s) ← exponent? s
  return (String.ofList (sign ++ whole ++ fraction ++ exponent), s)

/-- The rest of the text after a word. -/
def word? (word : String) (s : List Char) : Option (List Char) :=
  if word.toList.isPrefixOf s then some (s.drop word.length) else none

mutual

/-- A value at the front of a text, and the rest. `depth` counts the brackets around it; beyond
`limit` none is read. -/
def value? (limit : Nat) : Nat → Nat → List Char → Option (Json × List Char)
  | 0, _, _ => none
  | steps + 1, depth, s =>
    match skipSpace s with
    | '"' :: rest => (stringTail (rest.length + 1) [] rest).map fun (t, rest) => (.string t, rest)
    | '[' :: rest =>
      if limit ≤ depth then none
      else match skipSpace rest with
        | ']' :: rest => some (.array [], rest)
        | rest => (items? limit steps (depth + 1) rest).map fun (items, rest) => (.array items, rest)
    | '\x7b' :: rest =>
      if limit ≤ depth then none
      else match skipSpace rest with
        | '\x7d' :: rest => some (.object [], rest)
        | rest => (members? limit steps (depth + 1) rest).map fun (ms, rest) => (.object ms, rest)
    | 't' :: rest => (word? "rue" rest).map (.bool true, ·)
    | 'f' :: rest => (word? "alse" rest).map (.bool false, ·)
    | 'n' :: rest => (word? "ull" rest).map (.null, ·)
    | rest => (number? rest).map fun (t, rest) => (.number t, rest)

/-- The items of an array up to its closing bracket; there is at least one. -/
def items? (limit : Nat) : Nat → Nat → List Char → Option (List Json × List Char)
  | 0, _, _ => none
  | steps + 1, depth, s =>
    match value? limit steps depth s with
    | none => none
    | some (item, rest) =>
      match skipSpace rest with
      | ']' :: rest => some ([item], rest)
      | ',' :: rest => (items? limit steps depth rest).map fun (items, rest) => (item :: items, rest)
      | _ => none

/-- The members of an object up to its closing bracket; there is at least one. -/
def members? (limit : Nat) : Nat → Nat → List Char → Option (List (String × Json) × List Char)
  | 0, _, _ => none
  | steps + 1, depth, s =>
    match skipSpace s with
    | '"' :: rest =>
      match stringTail (rest.length + 1) [] rest with
      | none => none
      | some (name, rest) =>
        match skipSpace rest with
        | ':' :: rest =>
          match value? limit steps depth rest with
          | none => none
          | some (value, rest) =>
            match skipSpace rest with
            | '\x7d' :: rest => some ([(name, value)], rest)
            | ',' :: rest =>
              (members? limit steps depth rest).map fun (ms, rest) => ((name, value) :: ms, rest)
            | _ => none
        | _ => none
    | _ => none

end

/-- The value at the front of a text with brackets at most `limit` deep, and the rest. Two steps are
enough for a character. -/
def readFirstWithin? (limit : Nat) (s : List Char) : Option (Json × List Char) :=
  value? limit (2 * s.length + 2) 0 s

/-- The value of a text with brackets at most `limit` deep and nothing after it. -/
def readWithin? (limit : Nat) (text : String) : Option Json :=
  match readFirstWithin? limit text.toList with
  | some (value, rest) => if (skipSpace rest).isEmpty then some value else none
  | none => none

/-- The deepest nesting that is read. -/
def maxDepth : Nat := 10000

/-- The value at the front of a text, and the rest. -/
def readFirst? (s : List Char) : Option (Json × List Char) :=
  readFirstWithin? maxDepth s

/-- The value of a text with nothing after it. -/
def read? (text : String) : Option Json :=
  readWithin? maxDepth text

end SqlToMongo.Json
