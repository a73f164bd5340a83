import SqlToMongo.Sql.Quotation
import SqlToMongo.Text.Blank

/-!
# Lists of items

Fields, values, assignments and sort keys are lists of items between commas. A comma inside a
literal or inside parentheses belongs to its item.
-/

namespace SqlToMongo.Sql

open Text

/-- The parentheses that are open after a character outside literals. A closing parenthesis that
nothing opened is an ordinary character. -/
def depthAfter (depth : Nat) (c : Char) : Nat :=
  if c = '(' then depth + 1 else if c = ')' then depth - 1 else depth

/-- Cuts a text at its commas outside literals and parentheses: the part before the first of them
and the parts after. -/
def splitItems (quote : Option Char) (depth : Nat) : List Char → List Char × List (List Char)
  | [] => ([], [])
  | c :: rest =>
    if quote = none ∧ depth = 0 ∧ c = ',' then
      let (first, others) := splitItems none 0 rest
      ([], first :: others)
    else
      let inner := if quote = none then depthAfter depth c else depth
      let (first, others) := splitItems (openQuote quote c) inner rest
      (c :: first, others)

/-- The items of a list, trimmed; items with nothing but blanks are dropped. -/
def items (s : List Char) : List (List Char) :=
  let (first, others) := splitItems none 0 s
  ((first :: others).map trim).filter (!·.isEmpty)

/-- The text up to the parenthesis outside literals that brings the depth back to zero. -/
def takeToClose (quote : Option Char) (depth : Int) : List Char → Option (List Char)
  | [] => none
  | c :: rest =>
    if quote = none ∧ c = ')' ∧ depth = 1 then some []
    else
      let inner :=
        if quote ≠ none then depth
        else if c = '(' then depth + 1
        else if c = ')' then depth - 1
        else depth
      (takeToClose (openQuote quote c) inner rest).map (c :: ·)

/-- A text without its first byte. What is left of a longer character reads as replacement
characters. -/
def dropByte : List Char → List Char
  | [] => []
  | c :: rest => List.replicate (c.utf8Size - 1) '\ufffd' ++ rest

/-- The text inside the parenthesized group that a text starts with; `none` when the group is
never closed. -/
def firstGroup? (s : List Char) : Option (List Char) :=
  (takeToClose none 0 s).map dropByte

end SqlToMongo.Sql
