import SqlToMongo.Text.Blank
import SqlToMongo.Text.Fold

/-!
# Cutting a statement at its keywords

A statement is cut at its keywords, which stand between gaps. A part of free text runs to the first
place where what may follow it does: `cutBefore?` states that rule once, for every clause.
-/

namespace SqlToMongo.Sql

open Text

/-- The text after a gap of at least one character, the whole of it. -/
def gap? : List Char → Option (List Char)
  | [] => none
  | c :: rest => if isGap c then some (rest.dropWhile isGap) else none

/-- The text after keywords with a gap before each of them and one behind the last. -/
def keywords? : List String → List Char → Option (List Char)
  | [], s => gap? s
  | k :: ks, s => do
    let s ← gap? s
    let s ← keyword? k.toList s
    keywords? ks s

/-- The shortest front part of a text whose rest is accepted, with what was read there. -/
def cutBefore? {α : Type} (accept : List Char → Option α) :
    List Char → Option (List Char × α)
  | [] => (accept []).map ([], ·)
  | c :: rest =>
    match accept (c :: rest) with
    | some a => some ([], a)
    | none => (cutBefore? accept rest).map fun (front, a) => (c :: front, a)

/-- The longest front part made of characters of a class, with at least one of them, whose rest is
accepted, with what was read there. -/
def cutAfter? {α : Type} (isPart : Char → Bool) (accept : List Char → Option α) :
    List Char → Option (List Char × α)
  | [] => none
  | c :: rest =>
    if isPart c then
      match cutAfter? isPart accept rest with
      | some (front, a) => some (c :: front, a)
      | none => (accept rest).map ([c], ·)
    else none

/-- A clause that may be missing: its text, empty when it is missing, and what was read after
it. -/
def optionalClause? {α : Type} (opening : List String) (next? : List Char → Option α)
    (s : List Char) : Option (List Char × α) :=
  match keywords? opening s with
  | some body => cutBefore? next? body
  | none => (next? s).map ([], ·)

/-- The first run of characters of a class, which must not be empty, and the text after it. -/
def run? (isPart : Char → Bool) (s : List Char) : Option (List Char × List Char) :=
  match s.takeWhile isPart with
  | [] => none
  | front => some (front, s.dropWhile isPart)

end SqlToMongo.Sql
