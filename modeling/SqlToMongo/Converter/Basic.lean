import SqlToMongo.Cache.TwoQueue
import SqlToMongo.Converter.Format
import SqlToMongo.Converter.Key

/-!
# The converter

A converter has a default format and may keep conversions it has made. What it answers does not
depend on what it keeps.
-/

namespace SqlToMongo

open Cache Mongo

/-- What a converter reports while it works. -/
inductive Event where
  | converted
  | cacheHit
  | compileFailed
  deriving DecidableEq, Repr

def Event.message : Event → String
  | .converted => "converted"
  | .cacheHit => "cache hit"
  | .compileFailed => "compile failed"

structure Converter where
  format : Format
  cache : Option (TwoQueue String)
  deriving Inhabited, Repr

/-- A setting of a new converter. -/
inductive Setting where
  | format (name : String)
  | cacheSize (n : Int)
  | withoutLogger
  deriving DecidableEq, Repr

/-- Why a converter cannot be made. -/
inductive SetupError where
  | unknownFormat (name : String)
  | invalidCacheSize (n : Int)
  | missingLogger
  | cacheTooSmall
  deriving DecidableEq, Repr

def SetupError.message : SetupError → String
  | .unknownFormat name => (ConvertError.unknownFormat name).message
  | .invalidCacheSize n => "invalid cache size: " ++ toString n
  | .missingLogger => "logger is nil"
  | .cacheTooSmall => "must provide a positive size"

namespace Converter

/-- The number of conversions that are kept unless a setting says otherwise. -/
def defaultCacheSize : Nat := 1000

/-- A format and a cache size with one more setting. -/
def configure (state : Format × Nat) : Setting → Except SetupError (Format × Nat)
  | .format name =>
    match Format.parse name with
    | .ok format => .ok (format, state.2)
    | .error _ => .error (.unknownFormat name)
  | .cacheSize n => if n < 0 then .error (.invalidCacheSize n) else .ok (state.1, n.toNat)
  | .withoutLogger => .error .missingLogger

/-- A converter with the given settings; the first that is refused is the error. A cache of size
zero is none. -/
def create (settings : List Setting) : Except SetupError Converter := do
  let (format, size) ← settings.foldlM configure (.shell, defaultCacheSize)
  if size = 0 then return ⟨format, none⟩
  match TwoQueue.create? size with
  | some cache => return ⟨format, some cache⟩
  | none => throw .cacheTooSmall

/-- The number of conversions that are kept; `none` without a cache. -/
def cached (c : Converter) : Option Nat := c.cache.map (·.count)

/-- Compiles a statement, and reports when it is refused. -/
def compile (sql : String) : Except Statement.Error Command × List Event :=
  match Statement.compile sql with
  | .ok command => (.ok command, [])
  | .error e => (.error e, [.compileFailed])

/-- Converts a statement without looking at what is kept. -/
def convertFresh (sql format : String) : Except ConvertError String × List Event :=
  match compile sql with
  | (.error e, events) => (.error (.statement e), events)
  | (.ok command, events) =>
    match render command format with
    | .error e => (.error e, events)
    | .ok text => (.ok text, events ++ [.converted])

/-- Converts a statement in the format of an exact name. A conversion that is kept is given again;
a new one is kept when it succeeds. -/
def convertFormat (c : Converter) (sql format : String) :
    Except ConvertError String × List Event × Converter :=
  match c.cache with
  | none =>
    let (result, events) := convertFresh sql format
    (result, events, c)
  | some cache =>
    let key := conversionKey format sql
    match cache.get key with
    | (some text, cache) => (.ok text, [.cacheHit], { c with cache := some cache })
    | (none, cache) =>
      match convertFresh sql format with
      | (.ok text, events) => (.ok text, events, { c with cache := some (cache.insert key text) })
      | (.error e, events) => (.error e, events, { c with cache := some cache })

/-- Converts a statement in the default format. -/
def convert (c : Converter) (sql : String) : Except ConvertError String × List Event × Converter :=
  c.convertFormat sql c.format.name

end Converter

end SqlToMongo
