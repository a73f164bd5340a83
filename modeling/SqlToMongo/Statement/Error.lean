/-!
# Why a statement is refused
-/

namespace SqlToMongo.Statement

/-- The statements that are understood. -/
inductive Kind where
  | select
  | insert
  | update
  | delete
  deriving DecidableEq, Repr

/-- What is wrong with a statement of the right shape. -/
inductive Fault where
  /-- The parenthesis of the first row is never closed. -/
  | unbalancedValues
  /-- A LIMIT or OFFSET of `2^63` or more. -/
  | countOutOfRange (digits : String)
  deriving DecidableEq, Repr

inductive Error where
  | unsupported
  | malformed (kind : Kind) (fault : Option Fault)
  deriving DecidableEq, Repr

namespace Kind

def keyword : Kind → String
  | select => "SELECT"
  | insert => "INSERT"
  | update => "UPDATE"
  | delete => "DELETE"

end Kind

def Fault.message : Fault → String
  | .unbalancedValues => "unbalanced values list"
  | .countOutOfRange digits => "strconv.ParseInt: parsing \"" ++ digits ++ "\": value out of range"

/-- The kinds of errors in the order of their codes, which start at one. -/
inductive ErrorKind where
  | unsupported
  | malformed (kind : Kind)
  deriving DecidableEq, Repr

namespace ErrorKind

def all : List ErrorKind :=
  [unsupported, malformed .select, malformed .insert, malformed .update, malformed .delete]

def name : ErrorKind → String
  | unsupported => "UnsupportedStatementKind"
  | malformed .select => "MalformedSelect"
  | malformed .insert => "MalformedInsert"
  | malformed .update => "MalformedUpdate"
  | malformed .delete => "MalformedDelete"

/-- The place of a kind in the order of codes. -/
def code (kind : ErrorKind) : Nat :=
  all.idxOf kind + 1

end ErrorKind

namespace Error

def kind : Error → ErrorKind
  | unsupported => .unsupported
  | malformed kind _ => .malformed kind

def message : Error → String
  | unsupported => "unsupported SQL statement type"
  | malformed kind none => "invalid " ++ kind.keyword ++ " statement format"
  | malformed kind (some fault) =>
    "invalid " ++ kind.keyword ++ " statement format: " ++ fault.message

end Error

end SqlToMongo.Statement
