import SqlToMongo.Text.Hex
import SqlToMongo.Text.Printable

/-!
# Texts shown in messages

A message shows a text between double quotes, with a quote, a backslash and every character that
cannot be printed escaped.
-/

namespace SqlToMongo.Text

/-- The escapes that have a letter. -/
def displayEscapes : List (Char × Char) :=
  [('"', '"'), ('\\', '\\'), ('\x07', 'a'), ('\x08', 'b'), ('\x0c', 'f'), ('\n', 'n'),
   ('\r', 'r'), ('\t', 't'), ('\x0b', 'v')]

/-- One character of a shown text: ASCII controls have two hexadecimal digits, other unprintable
characters four or, beyond the first plane, eight. -/
def displayChar (c : Char) : List Char :=
  match displayEscapes.lookup c with
  | some letter => ['\\', letter]
  | none =>
    if isPrintable c then [c]
    else if c.toNat < 0x80 then '\\' :: 'x' :: Hex.padded 2 c.toNat
    else if c.toNat < 0x10000 then '\\' :: 'u' :: Hex.padded 4 c.toNat
    else '\\' :: 'U' :: Hex.padded 8 c.toNat

/-- The text between double quotes. -/
def display (s : String) : String :=
  String.ofList ('"' :: s.toList.flatMap displayChar ++ ['"'])

/-- A text with spaces after it up to a width. -/
def padded (width : Nat) (s : String) : String :=
  s ++ String.ofList (List.replicate (width - s.length) ' ')

end SqlToMongo.Text
