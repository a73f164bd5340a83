/-!
# Places in a text

A reader of YAML has to know its line and column, because indentation counts.
-/

namespace SqlToMongo.Yaml

/-- Space and tab. -/
def isSpaceOrTab (c : Char) : Bool := c == ' ' || c == '\t'

/-- The characters that end a line. -/
def isBreak (c : Char) : Bool :=
  c == '\n' || c == '\r' || c == '\u0085' || c == '\u2028' || c == '\u2029'

/-- Letters, digits, hyphen and underscore of ASCII: what names are made of. -/
def isNameChar (c : Char) : Bool := c.isAlphanum || c == '_' || c == '-'

/-- The characters that a document may hold. -/
def isAllowed (c : Char) : Bool :=
  let n := c.toNat
  n == 0x09 || n == 0x0A || n == 0x0D || (0x20 ≤ n && n ≤ 0x7E) || n == 0x85 ||
    (0xA0 ≤ n && n ≤ 0xD7FF) || (0xE000 ≤ n && n ≤ 0xFFFD) || 0x10000 ≤ n

/-- A place in a text: what is left, and where that begins. -/
structure Cursor where
  rest : List Char
  index : Nat := 0
  line : Nat := 0
  column : Nat := 0
  deriving Repr

namespace Cursor

def head? (c : Cursor) : Option Char := c.rest.head?

/-- The place after one more character of the same line. -/
def skip (c : Cursor) : Cursor :=
  { c with rest := c.rest.drop 1, index := c.index + 1, column := c.column + 1 }

/-- The place after some characters of the same line. -/
def skipMany (c : Cursor) (n : Nat) : Cursor :=
  { c with rest := c.rest.drop n, index := c.index + n, column := c.column + n }

/-- The place after a line end; CR and LF together are one. -/
def skipBreak (c : Cursor) : Cursor :=
  let width := match c.rest with
    | '\r' :: '\n' :: _ => 2
    | _ => 1
  { rest := c.rest.drop width, index := c.index + width, line := c.line + 1, column := 0 }

/-- The line end at a place as it counts in a scalar. -/
def breakText (c : Cursor) : List Char :=
  match c.rest with
  | '\u2028' :: _ => ['\u2028']
  | '\u2029' :: _ => ['\u2029']
  | _ => ['\n']

def isAt (c : Cursor) (p : Char → Bool) : Bool := (c.head?.map p).getD false

/-- Whether a word is over: at a blank, a line end or the end. -/
def endsWord : List Char → Bool
  | [] => true
  | c :: _ => isSpaceOrTab c || isBreak c

/-- Whether a line begins with three marks that stand alone. -/
def isAtMark (c : Cursor) (mark : Char) : Bool :=
  c.column == 0 &&
    match c.rest with
    | p :: q :: r :: rest => p == mark && q == mark && r == mark && endsWord rest
    | _ => false

/-- Whether a document begins or ends here. -/
def isAtDocument (c : Cursor) : Bool := c.isAtMark '-' || c.isAtMark '.'

/-- The place after the characters of a line that a test picks. -/
def skipWhile (c : Cursor) (p : Char → Bool) : Cursor :=
  c.skipMany (c.rest.takeWhile p).length

/-- The end of the line. -/
def lineEnd (c : Cursor) : Cursor := c.skipWhile (!isBreak ·)

end Cursor

end SqlToMongo.Yaml
