/-!
# Comparison operators and accumulators

The two tables of the converter: how a comparison and how an aggregate function of SQL is named in
a filter and in a `$group` stage.
-/

namespace SqlToMongo.Mongo

/-- Comparisons of a field with one value. -/
inductive Comparison where
  | eq
  | ne
  | gt
  | gte
  | lt
  | lte
  | regex
  deriving DecidableEq, Repr

/-- Comparisons of a field with a list of values. -/
inductive Membership where
  | isIn
  | notIn
  deriving DecidableEq, Repr

def Comparison.name : Comparison → String
  | .eq => "$eq"
  | .ne => "$ne"
  | .gt => "$gt"
  | .gte => "$gte"
  | .lt => "$lt"
  | .lte => "$lte"
  | .regex => "$regex"

def Membership.name : Membership → String
  | .isIn => "$in"
  | .notIn => "$nin"

/-- An operator of SQL: a symbol, a membership test or a pattern match. -/
inductive Operator where
  | symbol (sql : String) (meaning : Comparison)
  | membership (test : Membership)
  | like
  deriving DecidableEq, Repr

namespace Operator

/-- The operators in the order in which a condition is searched for them: the first of them that
occurs in it is its operator. -/
def all : List Operator :=
  [symbol "=" .eq, symbol "!=" .ne, symbol ">" .gt, symbol ">=" .gte, symbol "<" .lt,
   symbol "<=" .lte, membership .isIn, membership .notIn, like]

/-- The operator as SQL writes it. -/
def sql : Operator → String
  | symbol s _ => s
  | membership .isIn => "in"
  | membership .notIn => "not in"
  | like => "like"

/-- The operator as a filter names it. -/
def name : Operator → String
  | symbol _ c => c.name
  | membership m => m.name
  | like => Comparison.regex.name

end Operator

/-- The aggregate functions with their accumulators. -/
def accumulators : List (String × String) :=
  [("sum", "$sum"), ("avg", "$avg"), ("min", "$min"), ("max", "$max"), ("count", "$sum"),
   ("distinct", "$addToSet")]

/-- The accumulator of an aggregate function, named in small letters. -/
def accumulator? (function : String) : Option String :=
  accumulators.lookup function

end SqlToMongo.Mongo
