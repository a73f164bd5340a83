import SqlToMongo.Text.Split
import SqlToMongo.Text.Utf8
import SqlToMongo.Yaml.Scalar

/-!
# Tokens of YAML

Where blocks begin and end follows from columns, so tokens for that stand in no place of the text.
Whether a node is a key is known only at the colon behind it; the token that says so is then put
before the node.
-/

namespace SqlToMongo.Yaml

inductive Token where
  /-- The version that a document is written for. -/
  | version (major minor : Nat)
  /-- A short form for the beginning of tags. -/
  | shorthand (handle start : String)
  | documentStart
  | documentEnd
  | openSequence
  | openMapping
  | closeBlock
  | openBracket
  | closeBracket
  | openBrace
  | closeBrace
  /-- The hyphen before an item. -/
  | item
  | comma
  | key
  | value
  | link (name : String)
  | anchor (name : String)
  | tag (handle suffix : String)
  | scalar (text : String) (plain : Bool)
  deriving DecidableEq, Repr

/-- A place where a key may have begun. -/
structure PendingKey where
  /-- Whether nothing but a key can stand there. -/
  required : Bool
  /-- How many tokens come before it. -/
  token : Nat
  start : Cursor
  deriving Repr

/-- Keys are not longer than this, and stay on their line. -/
def maxKeyLength : Nat := 1024

def PendingKey.isCurrent (k : PendingKey) (c : Cursor) : Bool :=
  c.line ≤ k.start.line && c.index ≤ k.start.index + maxKeyLength

/-- What is known while tokens are read. -/
structure Scanner where
  cursor : Cursor
  tokens : Array Token := #[]
  /-- The column of the innermost block. -/
  indent : Int := -1
  /-- The columns of the blocks around it. -/
  outer : List Int := []
  pending : Option PendingKey := none
  /-- The pending keys around the open brackets. -/
  outerPending : List (Option PendingKey) := []
  /-- Whether a key may begin here. -/
  keyAllowed : Bool := true

namespace Scanner

def inBrackets (s : Scanner) : Bool := !s.outerPending.isEmpty

/-! ### Blocks and pending keys -/

/-- How many blocks end before a column, and the columns of those that stay. -/
def ended (column : Int) : Int → List Int → Nat × Int × List Int
  | indent, [] => (0, indent, [])
  | indent, next :: rest =>
    if column < indent then
      let (n, stays) := ended column next rest
      (n + 1, stays)
    else (0, indent, next :: rest)

/-- Ends the blocks to the right of a column. -/
def closeBlocks (s : Scanner) (column : Int) : Scanner :=
  if s.inBrackets then s
  else
    let (n, indent, outer) := ended column s.indent s.outer
    { s with tokens := s.tokens ++ Array.replicate n .closeBlock, indent, outer }

/-- Begins a block at a column unless one begins there or further right. -/
def openBlock (s : Scanner) (column place : Nat) (opening : Token) : Scanner :=
  if s.inBrackets || column ≤ s.indent then s
  else { s with
    outer := s.indent :: s.outer
    indent := column
    tokens := s.tokens.insertIdxIfInBounds place opening }

/-- What is pending is no key; wrong if it has to be one. -/
def dropPending? (s : Scanner) : Option Scanner :=
  match s.pending with
  | some k => if k.required then none else some { s with pending := none }
  | none => some s

/-- A key may begin here, if one may at all. -/
def savePending? (s : Scanner) : Option Scanner :=
  if s.keyAllowed then
    s.dropPending?.map fun s => { s with
      pending := some ⟨!s.inBrackets && s.indent == s.cursor.column, s.tokens.size, s.cursor⟩ }
  else some s

def push (s : Scanner) (token : Token) (next : Cursor) : Scanner :=
  { s with tokens := s.tokens.push token, cursor := next }

/-! ### Between tokens -/

/-- The place after blanks and line ends. -/
def skipGap : Nat → Cursor → Cursor
  | 0, c => c
  | steps + 1, c =>
    if c.isAt isSpaceOrTab then skipGap steps c.skip
    else if c.isAt (fun ch => ch == '\n' || ch == '\r') then skipGap steps c.skipBreak
    else c

/-- The end of a comment and of those that follow it on lines of their own. -/
def skipComments : Nat → Cursor → Cursor
  | 0, c => c
  | steps + 1, c =>
    let c := c.lineEnd
    let next := skipGap c.rest.length c
    if next.isAt (· == '#') then skipComments steps next else c

/-- Skips blanks, comments and line ends. Tabs do not count as blanks where they would indent. -/
def skipToToken : Nat → Scanner → Scanner
  | 0, s => s
  | steps + 1, s =>
    -- Where a key may begin, what stands before it is indentation.
    let tabs := s.inBrackets || !s.keyAllowed
    let c := s.cursor.skipWhile fun ch => ch == ' ' || (tabs && ch == '\t')
    let c := if c.isAt (· == '#') then skipComments c.rest.length c else c
    if c.isAt isBreak then
      skipToToken steps { s with
        cursor := c.skipBreak
        keyAllowed := s.keyAllowed || !s.inBrackets }
    else { s with cursor := c }

/-- Skips the comment behind a token on its line. -/
def skipLineComment (s : Scanner) : Scanner :=
  let c := s.cursor.skipWhile isSpaceOrTab
  if c.isAt (· == '#') then { s with cursor := c.lineEnd } else s

/-! ### Directives and marks of documents -/

/-- A number of at most nine digits, and the place after it. -/
def versionNumber? (c : Cursor) : Option (Nat × Cursor) :=
  let ds := c.rest.takeWhile Char.isDigit
  if ds.length ≤ 9 then
    (Text.digitsValue? ds).map (·, c.skipMany ds.length)
  else none

def isUriChar (c : Char) : Bool := isNameChar c || ";/?:@&=+$,.!~*'()[]".toList.contains c

/-- The bytes of escapes with a percent sign, as far as they go. -/
def percentBytes : Nat → List Char → List UInt8
  | steps + 1, '%' :: a :: b :: rest =>
    match Text.Hex.read? [a, b] with
    | some n => n.toUInt8 :: percentBytes steps rest
    | none => []
  | _, _ => []

/-- The part of a tag that a URI may hold. A percent sign begins the escape of a character. -/
def uri? : Nat → List Char → Cursor → Option (List Char × Cursor)
  | 0, text, c => some (text, c)
  | steps + 1, text, c =>
    match c.rest with
    | '%' :: _ =>
      match Text.frontChar? (percentBytes 4 c.rest) with
      | some (ch, width) => uri? steps (text ++ [ch]) (c.skipMany (3 * width))
      | none => none
    | ch :: _ => if isUriChar ch then uri? steps (text ++ [ch]) c.skip else some (text, c)
    | [] => some (text, c)

/-- The handle of a tag: an exclamation mark, a name, and perhaps another mark. -/
def handle (c : Cursor) : List Char × Cursor :=
  let name := (c.rest.drop 1).takeWhile isNameChar
  let c := c.skipMany (name.length + 1)
  if c.isAt (· == '!') then ('!' :: name ++ ['!'], c.skip) else ('!' :: name, c)

def versionDirective? (c : Cursor) : Option (Token × Cursor) := do
  let (major, c) ← versionNumber? (c.skipWhile isSpaceOrTab)
  if !c.isAt (· == '.') then none
  let (minor, c) ← versionNumber? c.skip
  return (.version major minor, c)

def tagDirective? (c : Cursor) : Option (Token × Cursor) := do
  let c := c.skipWhile isSpaceOrTab
  if !c.isAt (· == '!') then none
  let (name, c) := handle c
  if (1 < name.length && name.getLast? != some '!') || !c.isAt isSpaceOrTab then none
  let (start, c) ← uri? c.rest.length [] (c.skipWhile isSpaceOrTab)
  if start.isEmpty || !Cursor.endsWord c.rest then none
  return (.shorthand (String.ofList name) (String.ofList start), c)

/-- A directive after its percent sign, with the rest of its line. -/
def directive? (c : Cursor) : Option (Token × Cursor) := do
  let name := c.rest.takeWhile isNameChar
  let c := c.skipMany name.length
  if !Cursor.endsWord c.rest then none
  let (token, c) ←
    if name = "YAML".toList then versionDirective? c
    else if name = "TAG".toList then tagDirective? c
    else none
  let c := c.skipWhile isSpaceOrTab
  let c := if c.isAt (· == '#') then c.lineEnd else c
  if c.rest.isEmpty then return (token, c)
  if c.isAt isBreak then return (token, c.skipBreak) else none

/-- A token that ends all blocks. -/
def outermost? (s : Scanner) (token : Token) (next : Cursor) : Option Scanner := do
  let s ← (s.closeBlocks (-1)).dropPending?
  return { s.push token next with keyAllowed := false }

/-! ### Tokens inside documents -/

/-- The name of an anchor or a link after its mark. -/
def name? (c : Cursor) : Option (String × Cursor) :=
  let name := c.rest.takeWhile isNameChar
  let c := c.skipMany name.length
  if name.isEmpty then none
  else if Cursor.endsWord c.rest || c.isAt ("?:,]\x7d%@\x60".toList.contains ·) then
    some (String.ofList name, c)
  else none

/-- A tag: one in angle brackets, one with a handle, or one with the first handle alone. -/
def tag? (c : Cursor) : Option (Token × Cursor) := do
  let (token, c) ←
    if c.skip.isAt (· == '<') then do
      let (text, c) ← uri? c.rest.length [] (c.skipMany 2)
      if text.isEmpty || !c.isAt (· == '>') then none
      pure (Token.tag "" (String.ofList text), c.skip)
    else do
      let (name, next) := handle c
      if 1 < name.length && name.getLast? == some '!' then
        let (suffix, next) ← uri? next.rest.length [] next
        if suffix.isEmpty then none
        pure (.tag (String.ofList name) (String.ofList suffix), next)
      else
        let (suffix, next) ← uri? next.rest.length (name.drop 1) next
        pure (if suffix.isEmpty then .tag "" "!" else .tag "!" (String.ofList suffix), next)
  if Cursor.endsWord c.rest then return (token, c) else none

/-- A bracket that opens. -/
def opening? (s : Scanner) (token : Token) : Option Scanner := do
  let s ← s.savePending?
  let s := { s with outerPending := s.pending :: s.outerPending, pending := none, keyAllowed := true }
  return (s.push token s.cursor.skip).skipLineComment

/-- A bracket that closes. -/
def closing? (s : Scanner) (token : Token) : Option Scanner := do
  let s ← s.dropPending?
  let s := match s.outerPending with
    | [] => s
    | k :: rest => { s with pending := k, outerPending := rest }
  return ({ s with keyAllowed := false }.push token s.cursor.skip).skipLineComment

def comma? (s : Scanner) : Option Scanner := do
  let s ← s.dropPending?
  return ({ s with keyAllowed := true }.push .comma s.cursor.skip).skipLineComment

/-- The hyphen before an item, where a block can begin. A comment may stand behind it. -/
def item? (s : Scanner) : Option Scanner := do
  if !s.inBrackets && !s.keyAllowed then none
  let s ← (s.openBlock s.cursor.column s.tokens.size .openSequence).dropPending?
  return { s with keyAllowed := true }.push .item s.cursor.skip

/-- The question mark before a key. -/
def key? (s : Scanner) : Option Scanner := do
  if !s.inBrackets && !s.keyAllowed then none
  let s ← (s.openBlock s.cursor.column s.tokens.size .openMapping).dropPending?
  return ({ s with keyAllowed := !s.inBrackets }.push .key s.cursor.skip).skipLineComment

/-- What is pending, if it can be a key still; wrong if it has to be one and cannot. -/
def currentKey? (s : Scanner) : Option (Option PendingKey) :=
  match s.pending with
  | none => some none
  | some k =>
    if k.isCurrent s.cursor then some (some k) else if k.required then none else some none

/-- The colon before a value. It makes what is pending a key. -/
def value? (s : Scanner) : Option Scanner := do
  let current ← s.currentKey?
  let s := { s with pending := none }
  let s ← match current with
    | some k =>
      -- The node was a key: say so before it, and let a block of pairs begin in its column.
      let s := { s with tokens := s.tokens.insertIdxIfInBounds k.token .key, keyAllowed := false }
      some (s.openBlock k.start.column k.token .openMapping)
    | none =>
      -- The key is empty or stands behind a question mark.
      if !s.inBrackets && !s.keyAllowed then none
      else
        let s := s.openBlock s.cursor.column s.tokens.size .openMapping
        some { s with keyAllowed := !s.inBrackets }
  return (s.push .value s.cursor.skip).skipLineComment

/-- Something that may be a key: a link, an anchor, a tag or a scalar on a line. -/
def node? (s : Scanner) (read : Cursor → Option (Token × Cursor)) : Option Scanner := do
  let s ← s.savePending?
  let (token, next) ← read s.cursor
  return ({ s with keyAllowed := false }.push token next).skipLineComment

def quoted? (quote : Char) (c : Cursor) : Option (Token × Cursor) := do
  let (text, next) ← quotedScalar? quote (c.rest.length + 1) [] c.skip
  return (.scalar (String.ofList text) false, next)

def block? (s : Scanner) (literal : Bool) : Option Scanner := do
  let s ← s.dropPending?
  let (text, next) ← blockScalar? literal s.indent s.cursor.skip
  return { s with keyAllowed := true }.push (.scalar (String.ofList text) false) next

def plain? (s : Scanner) : Option Scanner := do
  let s ← s.savePending?
  let c := s.cursor
  let r ← plainScalar? s.inBrackets (s.indent + 1).toNat (c.rest.length + 1) [] (.blanks []) c
  let s := { s with keyAllowed := r.skippedLines }.push (.scalar (String.ofList r.text) true) r.next
  return if r.skippedLines then s else s.skipLineComment

/-- Whether a plain scalar cannot begin with a character, because it is a mark. -/
def isMark (c : Char) : Bool := "-?:,[]\x7b\x7d#&*!|>'\"%@\x60".toList.contains c

/-- The token at a place. -/
def token? (s : Scanner) : Option Scanner :=
  let c := s.cursor
  match c.rest with
  | [] => none
  | ch :: rest =>
    let stands := Cursor.endsWord rest
    let flow := s.inBrackets
    if c.column == 0 && ch == '%' then
      (directive? c.skip).bind fun (token, next) => s.outermost? token next
    else if c.isAtMark '-' then s.outermost? .documentStart (c.skipMany 3)
    else if c.isAtMark '.' then s.outermost? .documentEnd (c.skipMany 3)
    else if ch == '[' then s.opening? .openBracket
    else if ch == '\x7b' then s.opening? .openBrace
    else if ch == ']' then s.closing? .closeBracket
    else if ch == '\x7d' then s.closing? .closeBrace
    else if ch == ',' then s.comma?
    else if ch == '-' && stands then s.item?
    else if ch == '?' && (flow || stands) then s.key?
    else if ch == ':' && (flow || stands) then s.value?
    else if ch == '*' then s.node? fun c => (name? c.skip).map fun (n, next) => (.link n, next)
    else if ch == '&' then s.node? fun c => (name? c.skip).map fun (n, next) => (.anchor n, next)
    else if ch == '!' then s.node? tag?
    else if ch == '|' && !flow then s.block? true
    else if ch == '>' && !flow then s.block? false
    else if ch == '\'' || ch == '"' then s.node? (quoted? ch)
    else if !(isMark ch || isSpaceOrTab ch) || ch == '-' || (!flow && (ch == '?' || ch == ':')) then
      s.plain?
    else none

/-- The next token, with the ends of blocks before it; at the end of the text the blocks end too, and
the answer says so. -/
def next? (s : Scanner) : Option (Scanner × Bool) :=
  let s := skipToToken (s.cursor.rest.length + 1) s
  let s := s.closeBlocks s.cursor.column
  if s.cursor.rest.isEmpty then ((s.closeBlocks (-1)).dropPending?).map (·, true)
  else s.token?.map (·, false)

/-- The tokens of a text as far as they can be read, and whether that is all of it. -/
def run : Nat → Scanner → Array Token × Bool
  | 0, s => (s.tokens, false)
  | steps + 1, s =>
    match s.next? with
    | none => (s.tokens, false)
    | some (s, true) => (s.tokens, true)
    | some (s, false) => run steps s

end Scanner

/-- The tokens of a text as far as they can be read, and whether that is all of it. -/
def Token.scan (text : List Char) : Array Token × Bool :=
  Scanner.run (text.length + 1) { cursor := { rest := text } }

end SqlToMongo.Yaml
