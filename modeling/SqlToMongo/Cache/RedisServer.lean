import SqlToMongo.Cache.Redis

/-!
# A server in memory

The three commands on a map. Some commands can be made to fail, to see how the cache takes it.
-/

namespace SqlToMongo.Cache.Redis

structure Server where
  /-- The texts of the keys, with the words they were stored with. -/
  entries : List (String × String × List String) := []
  /-- The names of the commands that fail. -/
  failing : List String := []
  deriving Repr

namespace Server

/-- The name of a command. -/
def commandName : Request → String
  | .ping => "ping"
  | .get _ => "get"
  | .set .. => "set"

/-- Stores a text. -/
def put (s : Server) (key value : String) (options : List String) : Server :=
  { s with entries := (key, value, options) :: s.entries.filter (·.1 != key) }

/-- The answer to a command. -/
def answer (request : Request) (s : Server) : Reply × Server :=
  if s.failing.contains (commandName request) then (.failed "ERR failing", s)
  else
    match request with
    | .ping => (.done, s)
    | .get key =>
      match s.entries.lookup key with
      | some (value, _) => (.text value, s)
      | none => (.absent, s)
    | .set key value options => (.done, s.put key value options)

end Server

end SqlToMongo.Cache.Redis
