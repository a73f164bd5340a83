import SqlToMongo.Text.Split

/-!
# Headers

Names of headers do not depend on case: each word of a name begins with a capital letter.
-/

namespace SqlToMongo.Service

open Text

/-- The characters of header names. -/
def isHeaderChar (c : Char) : Bool :=
  c.isAlphanum || "!#$%&'*+-.^_`|~".toList.contains c

/-- Capital letters at the beginning and after hyphens, small ones elsewhere. -/
def capitalize : Bool → List Char → List Char
  | _, [] => []
  | first, c :: rest => (if first then c.toUpper else c.toLower) :: capitalize (c == '-') rest

/-- The written form of a name; what is no name stays as it is. -/
def canonicalName (name : String) : String :=
  if name.toList.all isHeaderChar then String.ofList (capitalize true name.toList) else name

abbrev Headers := List (String × String)

/-- The text of a header; `none` when it was not sent. -/
def Headers.get? (headers : Headers) (name : String) : Option String :=
  (headers.map fun (n, v) => (canonicalName n, v)).lookup name

/-- The text of a header, empty when it was not sent. -/
def Headers.get (headers : Headers) (name : String) : String :=
  (headers.get? name).getD ""

end SqlToMongo.Service
