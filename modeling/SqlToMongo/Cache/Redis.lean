import SqlToMongo.Cache.Entry
import SqlToMongo.Cache.Metrics

/-!
# The cache on a Redis server

Each operation sends at most one command. A command that fails makes the server count as
unavailable: from then on nothing is sent but a `PING` every half minute, and one that succeeds
makes the server available again.
-/

namespace SqlToMongo.Cache

namespace Redis

/-- What is sent to the server. -/
inductive Request where
  | ping
  | get (key : String)
  | set (key value : String) (options : List String)
  deriving DecidableEq, Repr

/-- What the server answers. -/
inductive Reply where
  | done
  | text (value : String)
  | absent
  | failed (message : String)
  deriving DecidableEq, Repr

/-- Why a command that asks for no value failed. It is not answered by nothing. -/
def Reply.failure? : Reply → Option String
  | .failed message => some message
  | .absent => some "redis: nil"
  | .done => none
  | .text _ => none

/-- What a caller asks of the cache. -/
inductive Operation where
  | get (key : String)
  | set (key value : String)
  deriving DecidableEq, Repr

/-- What the caller gets. -/
inductive Outcome where
  | value (text : String)
  | missing
  | stored
  | notStored (message : String)
  deriving DecidableEq, Repr

end Redis

open Redis

structure Redis where
  lifetime : Lifetime
  available : Bool := true
  /-- When the server last failed or was last tried. -/
  lastCheck : Int := 0
  metrics : Metrics := {}
  deriving Repr

namespace Redis

/-- The server's name of a key. -/
def serverKey (key : String) : String := "qc:cache:" ++ key

/-- Seconds between two attempts to reach an unavailable server. -/
def retryInterval : Int := 30

/-- The entry that is sent for a value. -/
def entryOf (c : Redis) (now : Int) (value : String) : Entry :=
  Entry.create value c.lifetime now

/-- The command that an operation sends, if any. -/
def request? (c : Redis) (now : Int) : Operation → Option Request
  | .get key =>
    if c.available then some (.get (serverKey key))
    else if now - c.lastCheck < retryInterval then none
    else some .ping
  | .set key value =>
    if c.available then
      some (.set (serverKey key) (c.entryOf now value).write c.lifetime.serverWords)
    else none

/-- The cache after the server failed. -/
def trip (c : Redis) (now : Int) : Redis := { c with available := false, lastCheck := now }

/-- The outcome of a look-up that the server answered. -/
def afterGet (c : Redis) (now : Int) : Reply → Outcome × Redis
  | .text stored =>
    match Entry.read? stored with
    | none => (.missing, { c with metrics := c.metrics.miss })
    | some entry =>
      match entry.value? with
      | none => (.missing, { c with metrics := c.metrics.error })
      | some value => (.value value, { c with metrics := c.metrics.hit })
  | .absent => (.missing, { c with metrics := c.metrics.miss })
  -- A text that is no entry.
  | .done => (.missing, { c with metrics := c.metrics.miss })
  | .failed _ => (.missing, { c.trip now with metrics := c.metrics.miss })

/-- The outcome of storing a value, once the server answered. -/
def afterSet (c : Redis) (now : Int) (value : String) (reply : Reply) : Outcome × Redis :=
  match reply.failure? with
  | some message =>
    (.notStored ("redis set failed: " ++ message),
      { c.trip now with metrics := c.metrics.error })
  | none =>
    let entry := c.entryOf now value
    (.stored,
      { c with metrics := c.metrics.stored (Text.utf8 entry.write).length (entry.saved value) })

/-- The outcome of an operation, given the answer to the command it sent. -/
def answered (c : Redis) (now : Int) : Operation → Reply → Outcome × Redis
  | .get _, reply =>
    if c.available then c.afterGet now reply
    else
      -- The command was a PING: the key is missing in any case.
      match reply.failure? with
      | some _ => (.missing, { c with lastCheck := now })
      | none => (.missing, { c with available := true, lastCheck := now })
  | .set _ value, reply => c.afterSet now value reply

/-- The outcome of an operation that sends nothing. -/
def unanswered : Operation → Outcome
  | .get _ => .missing
  | .set _ _ => .stored

/-- One operation at a moment, on a server that answers from its state. -/
def perform {σ : Type} (server : Request → σ → Reply × σ) (c : Redis) (now : Int) (op : Operation)
    (s : σ) : Outcome × Redis × σ :=
  match c.request? now op with
  | none => (unanswered op, c, s)
  | some request =>
    let (reply, s) := server request s
    let (outcome, c) := c.answered now op reply
    (outcome, c, s)

/-- A new cache, once the server answers one of several pings; else the failure of the last. -/
def connect {σ : Type} (server : Request → σ → Reply × σ) (lifetime : Lifetime) :
    Nat → σ → Except String (Redis × σ)
  | 0, s => attempt 0 s
  | attempts + 1, s => attempt attempts s
where
  attempt : Nat → σ → Except String (Redis × σ)
    | more, s =>
      let (reply, s) := server .ping s
      match reply.failure? with
      | some message =>
        match more with
        | 0 => .error ("redis connection failed: " ++ message)
        | more + 1 => attempt more s
      | none => .ok ({ lifetime }, s)

end Redis

end SqlToMongo.Cache
