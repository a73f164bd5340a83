import SqlToMongo.Sql.Quotation
import SqlToMongo.Text.Blank

/-!
# The layout of a statement

A statement is brought to one canonical layout before anything else looks at it: blanks and
semicolons at its end are dropped, and every run of ASCII white space outside literals becomes one
space.
-/

namespace SqlToMongo.Sql

open Text

/-- Collapses the layout of what follows. `pending` says that white space was seen since the last
character written; it is written as one space before the next. -/
def collapse (quote : Option Char) (pending : Bool) : List Char → List Char
  | [] => []
  | c :: rest =>
    if quote = none ∧ isLayout c then collapse none true rest
    else if pending then ' ' :: c :: collapse (openQuote quote c) false rest
    else c :: collapse (openQuote quote c) false rest

/-- Runs of ASCII white space outside literals become one space, and none stands at the ends. -/
def collapseLayout (s : List Char) : List Char :=
  collapse none false (s.dropWhile isLayout)

/-- Drops the blanks and semicolons at the end. -/
def dropTerminators (s : List Char) : List Char :=
  (s.reverse.dropWhile fun c => isBlank c || c == ';').reverse

/-- The canonical layout of a statement. -/
def normalize (s : List Char) : List Char :=
  collapseLayout (dropTerminators (trimStart s))

end SqlToMongo.Sql
