import SqlToMongo.Service.Header
import SqlToMongo.Text.Blank
import SqlToMongo.Text.LowerCase

/-!
# Requests from other origins

A page of another origin may read an answer only when headers of the answer say so. A browser asks
ahead with a *preflight*, an OPTIONS request that names the method to come.
-/

namespace SqlToMongo.Service.Cors

open Text

/-- A pattern of origins in small letters. -/
inductive Pattern where
  | exact (origin : String)
  /-- Anything between two texts. -/
  | between (before after : List Char)
  deriving DecidableEq, Repr

def Pattern.parse (text : String) : Pattern :=
  let text := lowered text
  match cut? '*' text.toList with
  | some (before, after) => .between before after
  | none => .exact text

def Pattern.accepts (origin : String) : Pattern → Bool
  | .exact o => o == origin
  | .between before after =>
    before.length + after.length ≤ origin.length && before.isPrefixOf origin.toList &&
      after.isSuffixOf origin.toList

/-- Whether every origin is allowed: with an empty list, and with a star in it. -/
def allowsAll (allowed : List String) : Bool := allowed.isEmpty || allowed.contains "*"

def allowsOrigin (allowed : List String) (origin : String) : Bool :=
  allowsAll allowed || (allowed.map Pattern.parse).any (·.accepts (lowered origin))

def allowsMethod (method : String) : Bool :=
  ["GET", "POST", "OPTIONS"].contains method

/-- What allows an origin to read the answer. -/
def allowOrigin (allowed : List String) (origin : String) : String × String :=
  ("Access-Control-Allow-Origin", if allowsAll allowed then "*" else origin)

/-- Whether a request of a method from its origin may be answered to it. -/
def allows (allowed : List String) (headers : Headers) (method : String) : Bool :=
  let origin := headers.get "Origin"
  origin != "" && allowsOrigin allowed origin && allowsMethod method

def isPreflight (method : String) (headers : Headers) : Bool :=
  method == "OPTIONS" && headers.get "Access-Control-Request-Method" != ""

/-- The names in a list of headers; a single one is taken as it stands. -/
def listedNames (text : String) : List String :=
  if text.toList.contains ',' then
    (splitOn (· == ',') text.toList).map fun name => canonicalName (String.ofList (trim name))
  else [canonicalName text]

/-- The headers that answer a preflight. -/
def preflightHeaders (allowed : List String) (headers : Headers) : Headers :=
  let method := headers.get "Access-Control-Request-Method"
  ("Vary", "Origin, Access-Control-Request-Method, Access-Control-Request-Headers") ::
    if allows allowed headers method then
      [allowOrigin allowed (headers.get "Origin"), ("Access-Control-Allow-Methods", method)] ++
        match headers.get? "Access-Control-Request-Headers" with
        | some names => [("Access-Control-Allow-Headers", ", ".intercalate (listedNames names))]
        | none => []
    else []

/-- The headers that go with any other answer. -/
def answerHeaders (allowed : List String) (headers : Headers) (method : String) : Headers :=
  ("Vary", "Origin") ::
    if allows allowed headers method then
      [allowOrigin allowed (headers.get "Origin"), ("Access-Control-Expose-Headers", "X-Request-Id")]
    else []

end SqlToMongo.Service.Cors
