import SqlToMongo.Files.Path

/-!
# Files and variables

What the program reads besides its input: files by their paths, and the variables of its
environment. A file that cannot be read comes with the cause.
-/

namespace SqlToMongo

structure Files where
  read : String → Except String String
  /-- The directory that relative paths start from when they are made absolute. -/
  here : String

namespace Files

/-- Files given by a list; `cause` tells why another one cannot be read. -/
def ofList (here : String) (entries : List (String × String)) (cause : String → String) :
    Files where
  here
  read path :=
    match (entries.map fun (p, text) => (Path.clean p, text)).lookup (Path.clean path) with
    | some text => .ok text
    | none => .error (cause (Path.clean path))

def contains (files : Files) (path : String) : Bool :=
  match files.read path with
  | .ok _ => true
  | .error _ => false

end Files

/-- The variables of the environment. -/
structure Variables where
  get? : String → Option String

namespace Variables

def ofList (entries : List (String × String)) : Variables where
  get? name := entries.lookup name

/-- The variables with a text; an empty one counts as not set. -/
def nonEmpty? (v : Variables) (name : String) : Option String :=
  match v.get? name with
  | some "" => none
  | found => found

end Variables

end SqlToMongo
