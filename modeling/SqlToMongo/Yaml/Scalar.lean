import SqlToMongo.Text.Hex
import SqlToMongo.Yaml.Cursor

/-!
# Scalars of YAML

Scalars are plain, between quotes, or blocks of lines. A line end inside a scalar is folded into a
space, and the empty lines after it stay.
-/

namespace SqlToMongo.Yaml

open Text

/-! ### Gaps -/

/-- What stands between two words of a scalar: blanks on a line, or a line end and the empty lines
after it. -/
inductive Gap where
  | blanks (text : List Char)
  | breaks (first more : List Char)
  deriving Repr

namespace Gap

/-- The gap as it counts in the text. -/
def folded : Gap → List Char
  | blanks text => text
  | breaks ['\n'] [] => [' ']
  | breaks ['\n'] more => more
  | breaks first more => first ++ more

def isBreaks : Gap → Bool
  | blanks _ => false
  | breaks .. => true

/-- A gap with a line end more. -/
def addBreak (text : List Char) : Gap → Gap
  | blanks _ => breaks text []
  | breaks first more => breaks first (more ++ text)

/-- A gap with a blank more; blanks at the front of a line do not count. -/
def addBlank (c : Char) : Gap → Gap
  | blanks text => blanks (text ++ [c])
  | breaks first more => breaks first more

end Gap

/-- The blanks and line ends at a place. A tab in a column before `indent` is wrong at the front of
a line. -/
def gap? (indent : Nat) : Nat → Gap → Cursor → Option (Gap × Cursor)
  | 0, gap, c => some (gap, c)
  | steps + 1, gap, c =>
    match c.rest with
    | [] => some (gap, c)
    | ch :: _ =>
      if isSpaceOrTab ch then
        if gap.isBreaks && c.column < indent && ch == '\t' then none
        else gap? indent steps (gap.addBlank ch) c.skip
      else if isBreak ch then gap? indent steps (gap.addBreak c.breakText) c.skipBreak
      else some (gap, c)

/-! ### Plain scalars -/

/-- The characters that end a plain scalar between brackets. -/
def isFlowMark (c : Char) : Bool :=
  c == ',' || c == '?' || c == '[' || c == ']' || c == '\x7b' || c == '\x7d'

/-- The word at the front of a text: up to a blank, a colon before one, or a mark between
brackets. -/
def plainWord (flow : Bool) : List Char → List Char
  | [] => []
  | c :: rest =>
    if isSpaceOrTab c || isBreak c || (c == ':' && Cursor.endsWord rest) || (flow && isFlowMark c)
    then []
    else c :: plainWord flow rest

/-- A scalar that has been read: its text, and whether line ends were skipped behind it. -/
structure ReadScalar where
  text : List Char
  skippedLines : Bool
  next : Cursor
  deriving Repr

/-- A plain scalar; words go on as long as lines are indented by `indent` and no comment begins. -/
def plainScalar? (flow : Bool) (indent : Nat) :
    Nat → List Char → Gap → Cursor → Option ReadScalar
  | 0, text, gap, c => some ⟨text, gap.isBreaks, c⟩
  | steps + 1, text, gap, c =>
    let word := if c.isAtDocument || c.isAt (· == '#') then [] else plainWord flow c.rest
    if word.isEmpty then some ⟨text, gap.isBreaks, c⟩
    else
      let text := text ++ gap.folded ++ word
      let c := c.skipMany word.length
      if c.isAt (fun ch => isSpaceOrTab ch || isBreak ch) then
        match gap? indent c.rest.length (.blanks []) c with
        | none => none
        | some (gap, c) =>
          if !flow && c.column < indent then some ⟨text, gap.isBreaks, c⟩
          else plainScalar? flow indent steps text gap c
      else some ⟨text, false, c⟩

/-! ### Quoted scalars -/

/-- The escapes that have a letter. -/
def letterEscapes : List (Char × Char) :=
  [('0', '\x00'), ('a', '\x07'), ('b', '\x08'), ('t', '\t'), ('\t', '\t'), ('n', '\n'),
   ('v', '\x0b'), ('f', '\x0c'), ('r', '\r'), ('e', '\x1b'), (' ', ' '), ('"', '"'), ('\'', '\''),
   ('\\', '\\'), ('N', '\u0085'), ('_', '\u00a0'), ('L', '\u2028'), ('P', '\u2029')]

/-- The escapes that take hexadecimal digits, and how many. -/
def codeEscapes : List (Char × Nat) := [('x', 2), ('u', 4), ('U', 8)]

/-- The character of an escape after its backslash, and how many characters the escape has. -/
def escape? : List Char → Option (Char × Nat)
  | [] => none
  | c :: rest =>
    match letterEscapes.lookup c, codeEscapes.lookup c with
    | some d, _ => some (d, 1)
    | none, some width =>
      let ds := rest.take width
      match Hex.read? ds with
      | some n =>
        if ds.length = width ∧ n.isValidChar then some (Char.ofNat n, width + 1) else none
      | none => none
    | none, none => none

/-- The text of a quoted scalar after its first quote, the last character first to begin with; the
place after the last quote. -/
def quotedScalar? (quote : Char) : Nat → List Char → Cursor → Option (List Char × Cursor)
  | 0, _, _ => none
  | steps + 1, text, c =>
    if c.isAtDocument then none
    else
      match c.rest with
      | [] => none
      | ch :: rest =>
        if isSpaceOrTab ch || isBreak ch then
          match gap? 0 c.rest.length (.blanks []) c with
          | some (gap, c) => quotedScalar? quote steps (gap.folded.reverse ++ text) c
          | none => none
        else if ch = quote then
          if quote = '\'' ∧ rest.head? = some '\'' then
            quotedScalar? quote steps ('\'' :: text) (c.skipMany 2)
          else some (text.reverse, c.skip)
        else if ch = '\\' ∧ quote = '"' then
          if (rest.head?.map isBreak).getD false then
            match gap? 0 rest.length (.breaks [] []) c.skip.skipBreak with
            | some (gap, c) => quotedScalar? quote steps (gap.folded.reverse ++ text) c
            | none => none
          else
            match escape? rest with
            | some (d, width) => quotedScalar? quote steps (d :: text) (c.skipMany (width + 1))
            | none => none
        else quotedScalar? quote steps (ch :: text) c.skip

/-! ### Blocks -/

/-- What happens to the line ends behind a block. -/
inductive Chomping where
  | strip
  | clip
  | keep
  deriving DecidableEq, Repr

/-- The digit of an indentation, not zero. -/
def indentDigit? (c : Char) : Option Nat :=
  if c.isDigit ∧ c ≠ '0' then some (c.toNat - '0'.toNat) else none

def chomping? (c : Char) : Option Chomping :=
  if c = '+' then some .keep else if c = '-' then some .strip else none

/-- The marks behind the one that begins a block, in any order: what is chomped, how far the block
is indented, and how many characters they are. `none` for an indentation of zero. -/
def blockMarks? : List Char → Option (Chomping × Nat × Nat)
  | [] => some (.clip, 0, 0)
  | p :: rest =>
    let q := rest.headD ' '
    match chomping? p with
    | some chomping =>
      if q.isDigit then (indentDigit? q).map (chomping, ·, 2) else some (chomping, 0, 1)
    | none =>
      if p.isDigit then
        (indentDigit? p).map fun n =>
          match chomping? q with
          | some chomping => (chomping, n, 2)
          | none => (.clip, n, 1)
      else some (.clip, 0, 0)

/-- The empty lines and the indentation at a place, up to the column `indent`, or as far as they go
if that is zero; the widest column is in `most`. -/
def blockBreaks? (indent : Nat) :
    Nat → List Char → Nat → Cursor → Option (List Char × Nat × Cursor)
  | 0, breaks, most, c => some (breaks, most, c)
  | steps + 1, breaks, most, c =>
    match c.rest with
    | [] => some (breaks, max most c.column, c)
    | ch :: _ =>
      let inside := indent == 0 || c.column < indent
      if inside && ch == ' ' then blockBreaks? indent steps breaks most c.skip
      else if inside && ch == '\t' then none
      else if isBreak ch then
        blockBreaks? indent steps (breaks ++ c.breakText) (max most c.column) c.skipBreak
      else some (breaks, max most c.column, c)

/-- The lines of a block. `ending` is the end of the line before, `breaks` the empty lines after it,
`wasBlank` whether that line began with a blank. -/
def blockLines? (literal : Bool) (indent : Nat) :
    Nat → List Char → List Char → List Char → Bool → Cursor →
      Option (List Char × List Char × List Char × Cursor)
  | 0, text, ending, breaks, _, c => some (text, ending, breaks, c)
  | steps + 1, text, ending, breaks, wasBlank, c =>
    if c.column ≠ indent ∨ c.rest = [] then some (text, ending, breaks, c)
    else
      let isBlank := c.isAt isSpaceOrTab
      let joint :=
        if !literal && !wasBlank && !isBlank && ending == ['\n'] then
          (if breaks.isEmpty then [' '] else [])
        else ending
      let line := c.rest.takeWhile (!isBreak ·)
      let stop := c.lineEnd
      let (ending, next) := if stop.rest.isEmpty then ([], stop) else (stop.breakText, stop.skipBreak)
      match blockBreaks? indent next.rest.length [] 0 next with
      | none => none
      | some (more, _, next) =>
        blockLines? literal indent steps (text ++ joint ++ breaks ++ line) ending more isBlank next

/-- A block after its first mark; the block stands below something in the column `outer`. -/
def blockScalar? (literal : Bool) (outer : Int) (c : Cursor) : Option (List Char × Cursor) := do
  let (chomping, increment, width) ← blockMarks? c.rest
  let c := (c.skipMany width).skipWhile isSpaceOrTab
  let c := if c.isAt (· == '#') then c.lineEnd else c
  if !(c.rest.isEmpty || c.isAt isBreak) then none
  let c := if c.rest.isEmpty then c else c.skipBreak
  let given := if increment = 0 then 0 else (if 0 ≤ outer then outer.toNat else 0) + increment
  let (breaks, most, c) ← blockBreaks? given c.rest.length [] 0 c
  let indent := if given = 0 then max (max most (outer + 1).toNat) 1 else given
  let (text, ending, breaks, c) ← blockLines? literal indent (c.rest.length + 1) [] [] breaks false c
  let tail := match chomping with
    | .strip => []
    | .clip => ending
    | .keep => ending ++ breaks
  return (text ++ tail, c)

end SqlToMongo.Yaml
