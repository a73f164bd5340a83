import SqlToMongo.Json.Writer
import SqlToMongo.Log.Level

/-!
# Log lines

A log is written as JSON, an entry a line. Entries below the level of the log are left out.
-/

namespace SqlToMongo.Log

structure Entry where
  level : Level
  message : String
  deriving DecidableEq, Repr

/-- The entry as a line; `time` is the text of its moment. -/
def Entry.line (time : String) (e : Entry) : String :=
  (Json.object [("level", .string e.level.name), ("time", .string time),
    ("msg", .string e.message)]).compact Json.escapeControls

/-- The lines of a log. -/
def lines (time : String) (level : Level) (entries : List Entry) : List String :=
  (entries.filter fun e => level.rank ≤ e.level.rank).map (Entry.line time)

end SqlToMongo.Log
