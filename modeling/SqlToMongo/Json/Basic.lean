/-!
# JSON values

Numbers keep the text they were written with, and objects keep the order of their members,
repeated names included.
-/

namespace SqlToMongo

inductive Json where
  | null
  | bool (b : Bool)
  | number (text : String)
  | string (s : String)
  | array (items : List Json)
  | object (members : List (String × Json))
  deriving Inhabited, Repr

namespace Json

/-- An integer as a number. -/
def int (n : Int) : Json := .number (toString n)

/-- The member of a name; of several the last one counts. -/
def member? (name : String) : Json → Option Json
  | .object members => members.reverse.lookup name
  | _ => none

/-- The text of a string. -/
def string? : Json → Option String
  | .string s => some s
  | _ => none

/-- The text under a name, empty when there is none. -/
def text (name : String) (j : Json) : String :=
  ((j.member? name).bind string?).getD ""

end Json

end SqlToMongo
