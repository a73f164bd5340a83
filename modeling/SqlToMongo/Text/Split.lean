import SqlToMongo.Decimal.Word

/-!
# Cutting texts
-/

namespace SqlToMongo.Text

-- Decided by going through the text: the instance for finite types goes through all characters.
instance (priority := high) decidableForallMem (p : Char → Prop) [DecidablePred p]
    (s : List Char) : Decidable (∀ c ∈ s, p c) :=
  List.decidableBAll p s

/-- A run of characters of a class that ends before another character, or with the text. -/
theorem takeWhile_run (p : Char → Bool) (run rest : List Char) (inside : ∀ c ∈ run, p c = true)
    (ends : ∀ c ∈ rest.head?, p c = false) :
    (run ++ rest).takeWhile p = run ∧ (run ++ rest).dropWhile p = rest := by
  rw [List.takeWhile_append_of_pos inside, List.dropWhile_append_of_pos inside]
  cases rest with
  | nil => simp
  | cons c rest =>
    have fails : p c = false := ends c (by simp)
    simp [fails]

/-- The text before the first character that is the given one, and the text after it; `none` when
there is no such character. -/
def cut? (mark : Char) (s : List Char) : Option (List Char × List Char) :=
  match s.dropWhile (· != mark) with
  | [] => none
  | _ :: rest => some (s.takeWhile (· != mark), rest)

/-- The text before and after the last such character. -/
def cutLast? (mark : Char) (s : List Char) : Option (List Char × List Char) :=
  (cut? mark s.reverse).map fun (after, before) => (before.reverse, after.reverse)

/-- Adds a character to the first part. -/
def consPart (c : Char) : List (List Char) → List (List Char)
  | [] => [[c]]
  | part :: parts => (c :: part) :: parts

/-- The parts between the characters that a test picks; there is at least one. -/
def splitOn (isMark : Char → Bool) : List Char → List (List Char)
  | [] => [[]]
  | c :: rest => if isMark c then [] :: splitOn isMark rest else consPart c (splitOn isMark rest)

/-- The parts that are not empty. -/
def fields (isMark : Char → Bool) (s : List Char) : List (List Char) :=
  (splitOn isMark s).filter (!·.isEmpty)

/-- The number that decimal digits stand for; `none` for any other text and for none. -/
def digitsValue? (s : List Char) : Option Nat :=
  if s.isEmpty then none
  else s.foldlM (fun n c => if c.isDigit then some (10 * n + (c.toNat - '0'.toNat)) else none) 0

/-- Whether a text starts with a minus, and what follows its sign, if it has one. -/
def takeSign : List Char → Bool × List Char
  | '-' :: rest => (true, rest)
  | '+' :: rest => (false, rest)
  | rest => (false, rest)

/-- A decimal integer of 64 bits, with or without a sign. -/
def int64? (s : List Char) : Option Int := do
  let (negative, ds) := takeSign s
  let n ← digitsValue? ds
  let z : Int := if negative then -n else n
  if Decimal.fitsInt64 z then some z else none

end SqlToMongo.Text
