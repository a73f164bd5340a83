import SqlToMongo.Text.Split

/-!
# Paths

Paths are cleaned by their text alone: empty parts and dots go, and two dots take back the part
before them.
-/

namespace SqlToMongo.Path

open Text

/-- The parts of a path after one more part, the last part first. In an absolute path there is
nothing above the top. -/
def addPart (absolute : Bool) (parts : List (List Char)) (part : List Char) : List (List Char) :=
  if part = [] ∨ part = ['.'] then parts
  else if part = ['.', '.'] then
    match parts with
    | [] => if absolute then [] else [part]
    | last :: before => if last = ['.', '.'] then part :: parts else before
  else part :: parts

def isAbsolute (path : List Char) : Bool := path.head? == some '/'

def cleanChars (path : List Char) : List Char :=
  let absolute := isAbsolute path
  let parts := (splitOn (· == '/') path).foldl (addPart absolute) []
  let joined := ['/'].intercalate parts.reverse
  if absolute then '/' :: joined
  else if joined.isEmpty then ['.'] else joined

/-- The shortest path of the same meaning; no path is a dot. -/
def clean (path : String) : String := String.ofList (cleanChars path.toList)

/-- One path below another; an empty one does not count. -/
def join (dir name : String) : String :=
  if dir = "" then (if name = "" then "" else clean name)
  else if name = "" then clean dir
  else clean (dir ++ "/" ++ name)

/-- The directory of a path: what stands before the last slash. -/
def parent (path : String) : String :=
  match cutLast? '/' path.toList with
  | some (before, _) => String.ofList (cleanChars (before ++ ['/']))
  | none => "."

/-- The last part of a path. -/
def name (path : String) : String :=
  if path = "" then "."
  else
    let trimmed := (path.toList.reverse.dropWhile (· == '/')).reverse
    match (splitOn (· == '/') trimmed).getLast? with
    | some [] => "/"
    | some part => String.ofList part
    | none => "/"

/-- The last part of a name from its last dot on, without the dot; `none` when it has no dot. -/
def extension? (path : String) : Option String :=
  match (splitOn (· == '/') path.toList).getLast? with
  | some part => (cutLast? '.' part).map fun (_, ext) => String.ofList ext
  | none => none

/-- The path seen from a directory. -/
def absolute (here path : String) : String :=
  if isAbsolute path.toList then clean path else join here path

end SqlToMongo.Path
