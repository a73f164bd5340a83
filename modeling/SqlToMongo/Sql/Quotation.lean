/-!
# Quoted literals

A literal starts with a single or a double quote and ends at the next one of the same kind. Inside
it a doubled quote stands for itself; a literal that is never closed runs to the end of the text.
-/

namespace SqlToMongo.Sql

/-- The two quote characters. -/
def isQuote (c : Char) : Bool :=
  c == '\'' || c == '"'

/-- What follows the opening quote `q`: the rest of the literal, its closing quote included, and
the text after it. -/
def takeQuoted (q : Char) : List Char → List Char × List Char
  | [] => ([], [])
  | [c] => ([c], [])
  | c :: d :: rest =>
    if c = q then
      if d = q then
        let (body, after) := takeQuoted q rest
        (c :: d :: body, after)
      else ([c], d :: rest)
    else
      let (body, after) := takeQuoted q (d :: rest)
      (c :: body, after)

/-- The literal and what follows it are the whole text. -/
theorem takeQuoted_append (q : Char) (s : List Char) :
    (takeQuoted q s).1 ++ (takeQuoted q s).2 = s := by
  fun_induction takeQuoted q s with
  | case1 => rfl
  | case2 => rfl
  | case3 c rest ih => simp_all
  | case4 => simp
  | case5 c d rest h ih => simp_all

/-- The quote that is open after a character. A doubled quote closes a literal and opens it again,
so the characters counted as quoted are those of the literals. -/
def openQuote (quote : Option Char) (c : Char) : Option Char :=
  match quote with
  | some q => if c = q then none else some q
  | none => if isQuote c then some c else none

/-- What stands between one matching pair of quotes at the ends of a text. -/
def quoted? : List Char → Option (List Char)
  | [] => none
  | q :: rest => if isQuote q && rest.getLast? == some q then some rest.dropLast else none

/-- A text with one matching pair of quotes at its ends loses them. -/
def unquote (s : List Char) : List Char :=
  (quoted? s).getD s

end SqlToMongo.Sql
