import SqlToMongo.Text.LowerCase

/-!
# Keywords regardless of case

Keywords are matched under simple case folding. Besides the two cases of each ASCII letter, the
long s `ſ` folds to `s` and the Kelvin sign to `k`.
-/

namespace SqlToMongo.Text

/-- The small ASCII letter a character folds to; any other character is its own. -/
def fold (c : Char) : Char :=
  if c == '\u017f' then 's'
  else if c == '\u212a' then 'k'
  else c.toLower

/-- The rest of the text after a keyword, given in small letters. -/
def keyword? : List Char → List Char → Option (List Char)
  | [], rest => some rest
  | _ :: _, [] => none
  | k :: ks, c :: rest => if fold c = k then keyword? ks rest else none

/-- Whether the text is the given small letters, regardless of case. -/
def isWord (ks s : List Char) : Bool :=
  keyword? ks s == some []

/-- A digit, an ASCII letter in either case, `_`, or a character that folds to an ASCII letter. -/
def isNameChar (c : Char) : Bool :=
  c.isAlphanum || c == '_' || c == '\u017f' || c == '\u212a'

/-- The capital ASCII letter of a character; any other character is its own. The long s and the
dotless i have ASCII capitals too. -/
def upper (c : Char) : Char :=
  if c == '\u017f' then 'S'
  else if c == '\u0131' then 'I'
  else c.toUpper

end SqlToMongo.Text
