import SqlToMongo.Converter.Supported
import SqlToMongo.Json.Canonical
import SqlToMongo.Json.Writer
import SqlToMongo.Service.Basic
import SqlToMongo.Service.Cors
import SqlToMongo.Service.Schema
import SqlToMongo.Service.Surroundings

/-!
# The service over HTTP

Each answer carries the id of its request. Other origins come first, then the limit of requests, then
the routes.
-/

namespace SqlToMongo.Service

open Decimal Text

structure Request where
  method : String
  path : String
  headers : Headers
  body : String
  deriving Repr

structure Response where
  status : Nat
  headers : Headers
  body : String
  deriving DecidableEq, Repr

namespace Response

def json (status : Nat) (value : Json) : Response :=
  ⟨status, [("Content-Type", "application/json")], value.compact Json.escapeSeparators ++ "\n"⟩

def failure (status : Nat) (message kind : String) : Response :=
  json status (.object [("error", .string message), ("kind", .string kind)])

def plain (status : Nat) (text : String) : Response :=
  ⟨status, [("Content-Type", "text/plain; charset=utf-8")], text ++ "\n"⟩

def empty (status : Nat) : Response := ⟨status, [], ""⟩

/-- The answer with headers before its own. -/
def withHeaders (headers : Headers) (r : Response) : Response :=
  { r with headers := headers ++ r.headers }

end Response

/-! ### Routes -/

/-- What can be asked for. -/
inductive Route where
  | health
  | supported
  | convert
  | batch
  | assistant
  deriving DecidableEq, Repr

/-- The route of a path. -/
def Route.ofPath? (path : String) : Option Route :=
  [("/health", health), ("/api/v1/syntax", supported), ("/api/v1/convert", convert),
   ("/api/v1/convert/batch", batch), ("/sse", assistant), ("/message", assistant)].lookup path

/-- The methods that are known at all. -/
def knownMethods : List String :=
  ["CONNECT", "DELETE", "GET", "HEAD", "OPTIONS", "PATCH", "POST", "PUT", "TRACE"]

def Route.allows (method : String) : Route → Bool
  | health | supported => method == "GET"
  | convert | batch => method == "POST"
  | assistant => true

def metricsJson (m : Cache.Metrics) : Json :=
  .object
    [("counters", .object
        [("bytes_cached", .int m.bytesCached), ("bytes_saved", .int m.bytesSaved),
         ("errors", .int m.errors), ("hits", .int m.hits), ("misses", .int m.misses)]),
     ("hit_rate", .ofBinary64 m.hitRate)]

def healthJson (s : Service) : Json :=
  .object <| ("status", .string "ok") ::
    match s.metrics? with
    | some m => [("cache", metricsJson m)]
    | none => []

def serveConvert (s : Service) (around : Surroundings) (body : String) : Response × Service :=
  match readBody around.cause "convertReq" convertSchema body with
  | .error message => (.failure 400 message "InvalidRequest", s)
  | .ok request =>
    match s.convert around.now (request.text "sql") (request.text "format") with
    | (.error e, s) => (.failure 400 e.message e.kindName, s)
    | (.ok output, s) =>
      (.json 200 (.object [("output", .string output), ("duration", .string around.duration)]), s)

/-- The texts of a list. -/
def listedTexts (name : String) (body : Json) : List String :=
  match body.member? name with
  | some (.array items) => items.filterMap (·.string?)
  | _ => []

def serveBatch (s : Service) (around : Surroundings) (body : String) : Response × Service :=
  match readBody around.cause "batchReq" batchSchema body with
  | .error message => (.failure 400 message "InvalidRequest", s)
  | .ok request =>
    match s.batch around.now (listedTexts "statements" request) (request.text "format") false with
    | (.error e, s) => (.failure 400 e.message "InvalidRequest", s)
    | (.ok results, s) =>
      (.json 200 (.object
        [("results", .array (results.map BatchResult.toJson)),
         ("duration", .string around.duration)]), s)

/-- The answer of a route. -/
def serve (s : Service) (around : Surroundings) (body : String) : Route → Response × Service
  | .health => (.json 200 s.healthJson, s)
  | .supported => (.json 200 Supported.toJson, s)
  | .convert => s.serveConvert around body
  | .batch => s.serveBatch around body
  | .assistant =>
    if s.config.assistantDisabled then (.plain 404 "MCP is disabled", s) else (.empty 501, s)

/-- Finds the route of a request; what follows a question mark is not part of the path. -/
def dispatch (s : Service) (around : Surroundings) (r : Request) : Response × Service :=
  let path := String.ofList (r.path.toList.takeWhile (· != '?'))
  if !knownMethods.contains r.method then (.empty 405, s)
  else
    match Route.ofPath? path with
    | none => (.plain 404 "404 page not found", s)
    | some route => if route.allows r.method then s.serve around r.body route else (.empty 405, s)

/-- Lets a request pass the limit. -/
def letPass (s : Service) (now : Int) : Bool × Service :=
  match s.limiter with
  | none => (true, s)
  | some limiter =>
    let (passes, limiter) := limiter.letPass now
    (passes, { s with limiter := some limiter })

/-- The answer to a request. -/
def respond (s : Service) (around : Surroundings) (r : Request) : Response × Service :=
  let r := { r with method := if r.method = "" then "GET" else r.method }
  let given := r.headers.get "X-Request-Id"
  let id := ("X-Request-Id", if given = "" then around.freshId else given)
  let allowed := s.config.allowedOrigins
  -- A question about what is allowed is answered before the limit counts it.
  if Cors.isPreflight r.method r.headers then
    (⟨204, id :: Cors.preflightHeaders allowed r.headers, ""⟩, s)
  else
    -- The headers are decided before the limit, so a refusal carries them too.
    let headers := id :: Cors.answerHeaders allowed r.headers r.method
    let (passes, s) := s.letPass around.now
    if passes then
      let (response, s) := s.dispatch around r
      (response.withHeaders headers, s)
    else
      ((Response.failure 429 "rate limit exceeded" "RateLimited").withHeaders
        (headers ++ [("Retry-After", "1")]), s)

end SqlToMongo.Service
