import SqlToMongo.Cache.Memory
import SqlToMongo.Config.Basic
import SqlToMongo.Converter.Format
import SqlToMongo.Converter.Key
import SqlToMongo.Json.Basic
import SqlToMongo.Log.Level
import SqlToMongo.Service.Limiter

/-!
# The service

A service converts statements one by one or in batches, keeps what it has converted, and takes a new
configuration without being stopped. Where no Redis server answers, results are kept in memory.
-/

namespace SqlToMongo

open Cache

structure Service where
  config : Config
  format : Format
  /-- The kept results; none when caching is off. -/
  cache : Option Memory
  limiter : Option Service.Limiter
  /-- Whether batches are taken. -/
  accepting : Bool
  deriving Repr

/-- The kind of a failure as callers are told it. -/
def ConvertError.kindName : ConvertError → String
  | .statement e => e.kind.name
  | .unknownFormat _ => "InvalidRequest"

namespace Service

/-- Why a service does not start. -/
inductive StartError where
  | logLevel (message : String)
  | format (error : ConvertError)
  deriving DecidableEq, Repr

def StartError.message : StartError → String
  | logLevel message => message
  | format error => error.message

/-- A service with a configuration, started at a moment. -/
def create (config : Config) (now : Int) : Except StartError Service := do
  match Log.Level.parse config.logLevel with
  | .error message => throw (.logLevel message)
  | .ok _ => pure ()
  let format ← (Format.parse config.format).mapError .format
  return {
    config, format
    cache :=
      if config.caching.disabled then none
      else some (Memory.create config.caching.size config.caching.lifetime)
    limiter := Limiter.create? config.rateLimit now
    accepting := true }

/-- The format of a request: none is the format of the service. -/
def resolveFormat (s : Service) (name : String) : Except ConvertError Format :=
  if name = "" then .ok s.format else Format.parse name

/-- The result that is kept for a statement in a format. -/
def lookup (s : Service) (now : Int) (sql : String) (format : Format) : Option String × Service :=
  match s.cache with
  | none => (none, s)
  | some cache =>
    let (found, cache) := cache.get now (conversionKey format.name sql)
    (found, { s with cache := some cache })

/-- Keeps a result; without a cache nothing is kept. -/
def keep (s : Service) (now : Int) (sql : String) (format : Format) (text : String) : Service :=
  { s with cache := s.cache.map (·.set now (conversionKey format.name sql) text) }

/-- Converts a statement in a format. A kept result is given again; a new one is kept. -/
def convertIn (s : Service) (now : Int) (sql : String) (format : Format) :
    Except ConvertError String × Service :=
  match s.lookup now sql format with
  | (some text, s) => (.ok text, s)
  | (none, s) =>
    match SqlToMongo.convert sql format.name with
    | .ok text => (.ok text, s.keep now sql format text)
    | .error e => (.error e, s)

/-- Converts a statement in the format of a name in any case. -/
def convert (s : Service) (now : Int) (sql format : String) :
    Except ConvertError String × Service :=
  match s.resolveFormat format with
  | .ok format => s.convertIn now sql format
  | .error e => (.error e, s)

/-! ### Batches -/

/-- What became of a statement. -/
inductive Outcome where
  | output (text : String)
  | failed (message kind : String)
  deriving DecidableEq, Repr

structure BatchResult where
  sql : String
  outcome : Outcome
  deriving DecidableEq, Repr

/-- The outcome of a conversion. -/
def Outcome.ofResult : Except ConvertError String → Outcome
  | .ok text => .output text
  | .error e => .failed e.message e.kindName

/-- Where in a batch a statement is turned away without being looked at. -/
def refusal? (s : Service) (canceled : Bool) : Option Outcome :=
  if !s.accepting then some (.failed "this pool has been closed" "Unavailable")
  else if canceled then some (.failed "context canceled" "Canceled")
  else none

/-- Converts statements one after the other, each on its own. -/
def convertAll (now : Int) (format : Format) (canceled : Bool) :
    List String → Service → List BatchResult × Service
  | [], s => ([], s)
  | sql :: rest, s =>
    let (outcome, s) :=
      match s.refusal? canceled with
      | some outcome => (outcome, s)
      | none => let (result, s) := s.convertIn now sql format; (Outcome.ofResult result, s)
    let (results, s) := convertAll now format canceled rest s
    (⟨sql, outcome⟩ :: results, s)

/-- Converts a batch in the format of a name; `canceled` tells that the caller has gone. -/
def batch (s : Service) (now : Int) (statements : List String) (format : String)
    (canceled : Bool) : Except ConvertError (List BatchResult) × Service :=
  match s.resolveFormat format with
  | .error e => (.error e, s)
  | .ok format =>
    let (results, s) := convertAll now format canceled statements s
    (.ok results, s)

/-- The result as JSON; what is empty is left out. -/
def BatchResult.toJson (r : BatchResult) : Json :=
  let filled (name text : String) : List (String × Json) :=
    if text = "" then [] else [(name, .string text)]
  .object <| ("sql", .string r.sql) ::
    match r.outcome with
    | .output text => filled "output" text
    | .failed message kind => filled "error" message ++ filled "kind" kind

/-! ### Life -/

/-- The service with a new configuration, a new cache and new counts; one that cannot start leaves
the service as it is. -/
def reload (s : Service) (config : Config) (now : Int) : Service :=
  match create config now with
  | .ok s => s
  | .error _ => s

/-- Takes no more batches and forgets the kept results. -/
def close (s : Service) : Service :=
  { s with accepting := false, cache := s.cache.map (·.close) }

/-- The counts of the cache. -/
def metrics? (s : Service) : Option Metrics := s.cache.map (·.metrics)

end Service

end SqlToMongo
