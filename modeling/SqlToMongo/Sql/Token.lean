import SqlToMongo.Sql.Quotation
import SqlToMongo.Text.Blank
import SqlToMongo.Text.LowerCase

/-!
# Tokens of a condition

The lexer never fails: every character is either a blank between tokens or part of a token. A token
keeps the blanks that stand before it, so the tokens hold the whole text, and byte offsets are a
view of the token list.
-/

namespace SqlToMongo.Sql

open Text

inductive TokenKind where
  | word
  | string
  | operator
  | leftParen
  | rightParen
  | comma
  | and
  | or
  | not
  | isIn
  | like
  deriving DecidableEq, Repr

namespace TokenKind

/-- The kinds in the order of their codes. -/
def all : List TokenKind :=
  [word, string, operator, leftParen, rightParen, comma, and, or, not, isIn, like]

def name : TokenKind → String
  | word => "word"
  | string => "string"
  | operator => "op"
  | leftParen => "("
  | rightParen => ")"
  | comma => ","
  | and => "AND"
  | or => "OR"
  | not => "NOT"
  | isIn => "IN"
  | like => "LIKE"

/-- The kind of a run of word characters: a keyword in any case, else a word. -/
def ofWord (s : List Char) : TokenKind :=
  match String.ofList (lowerAll s) with
  | "and" => and
  | "or" => or
  | "not" => not
  | "in" => isIn
  | "like" => like
  | _ => word

end TokenKind

structure Token where
  /-- The blanks before the token. -/
  gap : List Char
  kind : TokenKind
  text : List Char
  deriving DecidableEq, Repr

/-- The characters of comparison operators. -/
def isOperatorChar (c : Char) : Bool :=
  c == '=' || c == '!' || c == '<' || c == '>'

/-- The characters that end a word. -/
def isWordBreak (c : Char) : Bool :=
  isBlank c || isOperatorChar c || c == '(' || c == ')' || c == ',' || isQuote c

namespace Token

/-- The token that starts with `c`, a character that is not blank, and the text after it. -/
def scan (c : Char) (rest : List Char) : TokenKind × List Char × List Char :=
  if isQuote c then
    let (body, after) := takeQuoted c rest
    (.string, c :: body, after)
  else if c = '(' then (.leftParen, [c], rest)
  else if c = ')' then (.rightParen, [c], rest)
  else if c = ',' then (.comma, [c], rest)
  else if isOperatorChar c then
    (.operator, c :: rest.takeWhile isOperatorChar, rest.dropWhile isOperatorChar)
  else
    let word := c :: rest.takeWhile (!isWordBreak ·)
    (.ofWord word, word, rest.dropWhile (!isWordBreak ·))

/-- A token and what follows it are the text it was read from. -/
theorem scan_append (c : Char) (rest : List Char) :
    (scan c rest).2.1 ++ (scan c rest).2.2 = c :: rest := by
  unfold scan
  split
  · simpa using takeQuoted_append c rest
  · repeat' split
    all_goals simp

theorem length_scan (c : Char) (rest : List Char) :
    (scan c rest).2.2.length ≤ rest.length := by
  have h := congrArg List.length (scan_append c rest)
  have pos : 0 < (scan c rest).2.1.length := by
    unfold scan
    repeat' split
    all_goals simp
  simp only [List.length_append, List.length_cons] at h
  omega

/-- The first token of a text and what follows it; `none` when only blanks are left. -/
def next? (s : List Char) : Option (Token × List Char) :=
  match s.dropWhile isBlank with
  | [] => none
  | c :: rest =>
    let (kind, text, after) := scan c rest
    some (⟨s.takeWhile isBlank, kind, text⟩, after)

/-- The blanks before a token, the token and what follows it are the text it was read from. -/
theorem next?_append {s : List Char} {t : Token} {after : List Char}
    (h : next? s = some (t, after)) : t.gap ++ t.text ++ after = s := by
  unfold next? at h
  split at h
  next => simp at h
  next c rest start =>
    simp only [Option.some.injEq, Prod.mk.injEq] at h
    obtain ⟨rfl, rfl⟩ := h
    rw [List.append_assoc, scan_append, ← start, List.takeWhile_append_dropWhile]

theorem length_of_next? {s : List Char} {t : Token} {after : List Char}
    (h : next? s = some (t, after)) : after.length < s.length := by
  unfold next? at h
  split at h
  next => simp at h
  next c rest start =>
    simp only [Option.some.injEq, Prod.mk.injEq] at h
    obtain ⟨rfl, rfl⟩ := h
    have whole := congrArg List.length (@List.takeWhile_append_dropWhile _ isBlank s)
    have shorter := length_scan c rest
    simp only [start, List.length_append, List.length_cons] at whole
    exact Nat.lt_of_le_of_lt shorter (by omega)

/-- The tokens of a text. -/
def lex (s : List Char) : List Token :=
  match h : next? s with
  | none => []
  | some (t, after) =>
    have : after.length < s.length := length_of_next? h
    t :: lex after
termination_by s.length

/-- The source text that a run of tokens spans, from the first token to the last. -/
def source : List Token → List Char
  | [] => []
  | t :: ts => t.text ++ ts.flatMap fun u => u.gap ++ u.text

/-- The source text of a run of tokens without blanks at its ends. -/
def sourceText (ts : List Token) : List Char :=
  trim (source ts)

/-- The number of bytes a text takes. -/
def byteLength (s : List Char) : Nat :=
  s.foldr (fun c n => c.utf8Size + n) 0

/-- Start and end of each token, in bytes from `start`. -/
def spans (start : Nat) : List Token → List (Nat × Nat)
  | [] => []
  | t :: ts =>
    let first := start + byteLength t.gap
    let last := first + byteLength t.text
    (first, last) :: spans last ts

end Token

end SqlToMongo.Sql
