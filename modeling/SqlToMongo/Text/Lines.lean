import SqlToMongo.Text.Split
import SqlToMongo.Text.Utf8

/-!
# Lines of an input
-/

namespace SqlToMongo.Text

/-- The lines of a text that have an end, without it. -/
def endedLines (s : String) : List String :=
  (splitOn (· == '\n') s.toList).dropLast.map String.ofList

/-- The most bytes that are read as one line. -/
def lineCapacity : Nat := 4096

/-- LF and CR as bytes. -/
def lineFeed : UInt8 := 10

def carriageReturn : UInt8 := 13

/-- The first line of bytes, and the bytes after it. A line ends with LF, and a CR before that is part
of the end. A line that does not fit is cut, but never between CR and LF. -/
def firstLine (bytes : List UInt8) : List UInt8 × List UInt8 :=
  let front := bytes.take lineCapacity
  let line := front.takeWhile (· != lineFeed)
  if line.length < front.length then
    (if line.getLast? == some carriageReturn then line.dropLast else line, bytes.drop (line.length + 1))
  else if front.length == lineCapacity && front.getLast? == some carriageReturn then
    (front.dropLast, bytes.drop (lineCapacity - 1))
  else (front, bytes.drop lineCapacity)

/-- The lines of bytes, with a bound on their number. -/
def linesOfBytes : Nat → List UInt8 → List (List UInt8)
  | 0, _ => []
  | _, [] => []
  | steps + 1, bytes =>
    let (line, rest) := firstLine bytes
    line :: linesOfBytes steps rest

/-- The lines of a text as they are typed. What follows the last end is a line if there is
something. -/
def typedLines (s : String) : List String :=
  let bytes := utf8 s
  (linesOfBytes bytes.length bytes).map ofUtf8

end SqlToMongo.Text
