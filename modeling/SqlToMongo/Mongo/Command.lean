import SqlToMongo.Mongo.Value

/-!
# Commands

What a statement is compiled to, before it is written in one of the output formats.
-/

namespace SqlToMongo.Mongo

/-- One step of an aggregation pipeline. -/
inductive Stage where
  | filter (condition : Document)
  | group (id : Document) (accumulators : Document)
  | sort (keys : Document)
  | skip (n : Int)
  | limit (n : Int)
  | unknown
  deriving Inhabited, Repr

namespace Stage

/-- The stage as a pipeline document. The names of a group are stored one after another, the group
key first. -/
def toDocument : Stage → Document
  | filter condition => [("$match", .doc condition)]
  | group id accumulators => [("$group", .doc (Document.setAll [("_id", .doc id)] accumulators))]
  | sort keys => [("$sort", .doc keys)]
  | skip n => [("$skip", .int n)]
  | limit n => [("$limit", .int n)]
  | unknown => []

end Stage

/-- A query for the documents of a collection. A projection without names takes all fields. -/
structure Find where
  collection : String
  filter : Document
  projection : Document
  sort : Option Document
  skip : Option Int
  limit : Option Int
  deriving Inhabited, Repr

inductive Command where
  | find (query : Find)
  | aggregate (collection : String) (pipeline : List Stage)
  | insertOne (collection : String) (document : Document)
  | updateMany (collection : String) (filter update : Document)
  | deleteMany (collection : String) (filter : Document)
  | unknown (collection : String)
  deriving Inhabited, Repr

inductive CommandKind where
  | find
  | aggregate
  | insertOne
  | updateMany
  | deleteMany
  deriving DecidableEq, Repr

namespace CommandKind

/-- The kinds in the order of their codes. -/
def all : List CommandKind :=
  [find, aggregate, insertOne, updateMany, deleteMany]

def name : CommandKind → String
  | find => "find"
  | aggregate => "aggregate"
  | insertOne => "insertOne"
  | updateMany => "updateMany"
  | deleteMany => "deleteMany"

end CommandKind

namespace Command

def kind? : Command → Option CommandKind
  | find _ => some .find
  | aggregate .. => some .aggregate
  | insertOne .. => some .insertOne
  | updateMany .. => some .updateMany
  | deleteMany .. => some .deleteMany
  | unknown _ => none

/-- The name of the command's kind. -/
def method (c : Command) : String :=
  match c.kind? with
  | some kind => kind.name
  | none => "unknown"

def collection : Command → String
  | find query => query.collection
  | aggregate collection _ => collection
  | insertOne collection _ => collection
  | updateMany collection _ _ => collection
  | deleteMany collection _ => collection
  | unknown collection => collection

end Command

/-- The stages of a pipeline as documents. -/
def pipelineDocuments (pipeline : List Stage) : List Value :=
  pipeline.map fun stage => .doc stage.toDocument

end SqlToMongo.Mongo
