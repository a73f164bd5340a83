import SqlToMongo.Cache.Memory
import SqlToMongo.Cache.RedisUrl
import SqlToMongo.Config.Basic
import SqlToMongo.Converter.Basic
import SqlToMongo.Converter.Key
import SqlToMongo.Json.Writer

/-!
# Checking an installation

Each part is tried out: the cache by storing a value and reading it back, the converter by
converting one statement of every kind.
-/

namespace SqlToMongo.Cli

open Cache

structure Status where
  name : String
  kind : String
  status : String
  latency : String := ""
  note : String := ""
  deriving DecidableEq, Repr

namespace Status

def isFailure (s : Status) : Bool := s.status == "failed"

def failed (name kind note : String) : Status := { name, kind, status := "failed", note }

end Status

/-- What the outer layer tells a check: the time, how long things take, and why a server cannot be
reached. -/
structure CheckContext where
  now : Int
  duration : String
  cause : String

namespace Check

/-- One statement of every kind. -/
def statements : List String :=
  ["SELECT * FROM t WHERE a = 1",
   "SELECT a, COUNT(*) FROM t GROUP BY a",
   "INSERT INTO t (a) VALUES (1)",
   "UPDATE t SET a = 2 WHERE a = 1",
   "DELETE FROM t WHERE a = 2"]

/-- Stores a value and reads it back. -/
def memory (context : CheckContext) (caching : Caching) : Status :=
  let key := conversionKey Format.shell.name (statements.headD "")
  let cache := (Memory.create caching.size caching.lifetime).set context.now key "ok"
  match cache.get context.now key with
  | (some "ok", cache) =>
    let m := cache.metrics
    let percent := Decimal.Binary64.roundQuotient (100 * m.hits) (max 1 (m.hits + m.misses))
    { name := "cache", kind := "memory", status := "ok", latency := context.duration
      note := "hits " ++ toString m.hits ++ ", misses " ++ toString m.misses ++ ", hit rate " ++
        toString percent ++ "%" }
  | _ => .failed "cache" "memory" "cached value could not be read back"

/-- The state of the cache; a server that cannot be reached is a failure. -/
def cache (context : CheckContext) (config : Config) : Status :=
  if config.caching.disabled then
    { name := "cache", kind := "none", status := "ok", note := "caching disabled" }
  else if config.redis.url = "" then memory context config.caching
  else .failed "cache" "redis" ((RedisUrl.refusalOf config.redis.url).message context.cause)

/-- The first statement that is refused, and why. -/
def firstRefused? (c : Converter) : List String → Option (String × ConvertError)
  | [] => none
  | sql :: rest =>
    match c.convert sql with
    | (.error e, _) => some (sql, e)
    | (.ok _, _) => firstRefused? c rest

/-- The state of the converter, and the error if it failed. -/
def converter (context : CheckContext) (format : String) : Status × Option String :=
  match Converter.create [.format format, .cacheSize 0] with
  | .error e => (.failed "converter" format e.message, some e.message)
  | .ok c =>
    match firstRefused? c statements with
    | some (sql, e) =>
      (.failed "converter" format (sql ++ ": " ++ e.message), some e.message)
    | none =>
      ({ name := "converter", kind := format, status := "ok", latency := context.duration }, none)

end Check

/-- What a check found. -/
structure CheckResult where
  success : Bool
  services : List Status
  error : String
  duration : String
  deriving DecidableEq, Repr

namespace CheckResult

/-- Checks everything a configuration names. -/
def ofConfig (context : CheckContext) (config : Config) : CheckResult :=
  let settings : Status :=
    { name := "config", kind := "yaml", status := "ok"
      note := if config.path = "" then "defaults" else config.path }
  let (converter, error) := Check.converter context config.format
  let services := [settings, Check.cache context config, converter]
  let success := error.isNone && !services.any (·.isFailure)
  { success, services, duration := context.duration
    error :=
      match error with
      | some message => message
      | none => if success then "" else "service check failed" }

def statusJson (s : Status) : Json :=
  let filled (name text : String) : List (String × Json) :=
    if text = "" then [] else [(name, .string text)]
  .object ([("name", .string s.name), ("type", .string s.kind), ("status", .string s.status)] ++
    filled "latency" s.latency ++ filled "note" s.note)

def toJson (r : CheckResult) : Json :=
  .object <|
    [("success", .bool r.success),
     ("services", if r.services.isEmpty then .null else .array (r.services.map statusJson))] ++
    (if r.error = "" then [] else [("error", Json.string r.error)]) ++
    [("duration", .string r.duration)]

/-- A line about a part. Notes of failures are always shown, times and other notes on request. -/
def statusLine (verbose : Bool) (s : Status) : String :=
  "  " ++ s.name ++ " (" ++ s.kind ++ "): " ++ (if s.isFailure then "FAILED" else "OK") ++
    (if s.latency ≠ "" ∧ verbose then " [" ++ s.latency ++ "]" else "") ++
    (if s.note ≠ "" ∧ (s.isFailure ∨ verbose) then " - " ++ s.note else "") ++ "\n"

def text (verbose : Bool) (r : CheckResult) : String :=
  "\n" ++ String.join (r.services.map (statusLine verbose)) ++ "\n" ++
    if r.success then "All services validated (" ++ r.duration ++ ")\n"
    else "Service validation failed: " ++ r.error ++ " (" ++ r.duration ++ ")\n"

/-- The result as it is printed. -/
def render (asJson verbose : Bool) (r : CheckResult) : String :=
  if asJson then r.toJson.pretty Json.escapeMarkup "  " 0 ++ "\n" else r.text verbose

end CheckResult

end SqlToMongo.Cli
