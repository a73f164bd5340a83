import SqlToMongo.Decimal.Style
import SqlToMongo.Text.Display
import SqlToMongo.Text.Split

/-!
# Configuration

The settings of the program, with the address that follows from them.
-/

namespace SqlToMongo

open Decimal Text

/-- How results are cached. -/
structure Caching where
  disabled : Bool := false
  size : Int := 1000
  /-- Seconds that a result is kept. -/
  lifetime : Int := 3600
  deriving Repr

/-- The server that shares results between services. -/
structure RedisSettings where
  url : String := ""
  connectAttempts : Nat := 3
  deriving Repr

/-- How many requests are served. -/
structure RateLimit where
  /-- Requests a second; zero is no limit. -/
  rate : Binary64 := .zero
  /-- Requests at once; the rate rounded up unless above zero. -/
  bucket : Int := 0
  deriving Repr

structure Config where
  appName : String := "sql2mongo"
  logLevel : String := "info"
  logFormat : String := "simple"
  hostPort : String := "0.0.0.0:8080"
  host : String := ""
  port : String := ""
  format : String := "shell"
  production : Bool := false
  allowedOrigins : List String := ["*"]
  workers : Int := 8
  caching : Caching := {}
  redis : RedisSettings := {}
  rateLimit : RateLimit := {}
  assistantDisabled : Bool := false
  /-- Where the service listens. -/
  address : String := ""
  /-- The file of the settings; empty without one. -/
  path : String := ""
  deriving Repr

namespace Config

/-- Why there is no configuration. -/
inductive Error where
  | unreadable
  | undecodable
  | nestedParent (parent grandparent : String)
  | invalidFormat (name : String)
  | invalidRate (rate : Binary64)
  deriving DecidableEq, Repr

/-- The message, given the cause as the reader of the file words it. -/
def Error.message (cause : String) : Error → String
  | .unreadable => cause
  | .undecodable => "failed to decode config: " ++ cause
  | .nestedParent parent grandparent =>
    "inherited config (" ++ parent ++ ") cannot itself inherit (" ++ grandparent ++ ")"
  | .invalidFormat name => "invalid format: " ++ display name
  | .invalidRate rate =>
    "invalid rate_limit.rate: " ++
      (if rate.isFinite then messageStyle.write rate else if rate.isNaN then "NaN" else "-Inf")

/-- Where the service listens unless settings say otherwise. -/
def defaultAddress : String := "0.0.0.0:8080"

def defaultWorkers : Int := 8

/-- The address: host and port replace the parts of their pair, and a pair without a colon does not
count. -/
def addressOf (c : Config) : String :=
  match cut? ':' c.hostPort.toList with
  | none => defaultAddress
  | some (host, port) =>
    (if c.host = "" then String.ofList host else c.host) ++ ":" ++
      (if c.port = "" then String.ofList port else c.port)

/-- Checks the settings and fills in what follows from them. -/
def resolve (c : Config) : Except Error Config :=
  if c.format ≠ "" ∧ c.format ≠ "shell" ∧ c.format ≠ "command" then .error (.invalidFormat c.format)
  else if c.rateLimit.rate.isBelowZero then .error (.invalidRate c.rateLimit.rate)
  else .ok { c with
    workers := if c.workers ≤ 0 then defaultWorkers else c.workers
    address := c.addressOf }

/-- Why a configuration cannot be watched for changes. -/
def watchError? (c : Config) : Option String :=
  if c.path = "" then some "config was not read from a file" else none

end Config

end SqlToMongo
