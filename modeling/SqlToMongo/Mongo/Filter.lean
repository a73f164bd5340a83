import SqlToMongo.Mongo.Value
import SqlToMongo.Sql.Condition

/-!
# Filters

The filter document of a condition. The terms of a conjunction are stored one after another into
one document; each alternative of a disjunction has a document of its own.
-/

namespace SqlToMongo.Mongo

open Sql

namespace Filter

/-- What a field is compared with. Patterns are matched regardless of case. -/
def comparison (op : Comparison) (value : String) : Value :=
  match op with
  | .regex => .doc [(op.name, .string value), ("$options", .string "i")]
  | _ => .doc [(op.name, .string value)]

/-- The list that a field is tested against. -/
def membership (test : Membership) (values : List String) : Value :=
  .doc [(test.name, .list (values.map .string))]

mutual

/-- Stores a condition into a filter. -/
def store (d : Document) : Condition → Document
  | .compare field op value => d.set field (comparison op value)
  | .member field test values => d.set field (membership test values)
  | .truthy text => d.set text (.bool true)
  | .any terms => d.set "$or" (.list (alternatives terms))
  | .all terms => storeAll d terms

def storeAll (d : Document) : List Condition → Document
  | [] => d
  | term :: rest => storeAll (store d term) rest

def alternatives : List Condition → List Value
  | [] => []
  | term :: rest => .doc (store [] term) :: alternatives rest

end

/-- The filter document of a condition. -/
def ofCondition (c : Condition) : Document :=
  store [] c

end Filter

end SqlToMongo.Mongo
