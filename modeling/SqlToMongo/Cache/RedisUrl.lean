import SqlToMongo.Text.Blank
import SqlToMongo.Text.Hex
import SqlToMongo.Text.Split
import SqlToMongo.Text.Utf8

/-!
# Addresses of Redis servers

An address names a scheme (`redis`, `rediss`, or `unix` for a socket), possibly a user and a password,
a host and its port, a database and options. This module decides which texts are addresses.
-/

namespace SqlToMongo.Cache.RedisUrl

open Text

/-! ### Percent encoding -/

/-- The bytes of a percent-encoded text; in queries a plus is a space. -/
def unescape? (plusIsSpace : Bool) : List Char → Option (List UInt8)
  | [] => some []
  | '%' :: a :: b :: rest => do
    let n ← Hex.read? [a, b]
    (UInt8.ofNat n :: ·) <$> unescape? plusIsSpace rest
  | '%' :: _ => none
  | c :: rest =>
    let c := if plusIsSpace && c == '+' then ' ' else c
    (utf8 c.toString ++ ·) <$> unescape? plusIsSpace rest

/-- The text of a percent-encoded text. -/
def unescapeText? (plusIsSpace : Bool) (s : List Char) : Option (List Char) :=
  (unescape? plusIsSpace s).map fun bytes => (ofUtf8 bytes).toList

/-- Characters that stand for themselves in a host: all but a few of ASCII. -/
def isHostChar (c : Char) : Bool :=
  c.isAlphanum || "!$&'()*+,;=:[]<>\"-_.~".toList.contains c || 0x80 ≤ c.toNat

/-- In a host only bytes beyond ASCII and the percent sign are escaped. -/
def isHost : List Char → Bool
  | [] => true
  | '%' :: a :: b :: rest =>
    match Hex.read? [a, b] with
    | some n => (0x80 ≤ n || n == 0x25) && isHost rest
    | none => false
  | c :: rest => isHostChar c && isHost rest

/-- In the zone of a host only percent signs, spaces and ASCII characters that a host may hold are
escaped. -/
def isZone : List Char → Bool
  | [] => true
  | '%' :: a :: b :: rest =>
    match Hex.read? [a, b] with
    | some n =>
      (n == 0x25 || n == 0x20 || n < 0x80 && isHostChar (Char.ofNat n)) && isZone rest
    | none => false
  | c :: rest => isHostChar c && isZone rest

/-! ### Parts -/

/-- Nothing, or a colon and digits. -/
def isPort : List Char → Bool
  | [] => true
  | c :: rest => c == ':' && rest.all Char.isDigit

/-- The part of a host from `%25` on is its zone. -/
def cutZone : List Char → List Char × List Char
  | [] => ([], [])
  | '%' :: '2' :: '5' :: rest => ([], '%' :: '2' :: '5' :: rest)
  | c :: rest => let (host, zone) := cutZone rest; (c :: host, zone)

/-- A host with its port; an address of numbers stands in brackets. -/
def isHostAndPort (s : List Char) : Bool :=
  match s with
  | '[' :: _ =>
    match cutLast? ']' s with
    | none => false
    | some (inside, port) =>
      let (host, zone) := cutZone inside
      isPort port && isHost host && isZone zone && isHost port
  | _ =>
    match cutLast? ':' s with
    | some (_, port) => isPort (':' :: port) && isHost s
    | none => isHost s

/-- The user and the password. -/
def isUserInfo (s : List Char) : Bool :=
  s.all (fun c => c.isAlphanum || "-._:~!$&'()*+,;=%@".toList.contains c) &&
    (unescape? false s).isSome

def isAuthority (s : List Char) : Bool :=
  match cutLast? '@' s with
  | some (user, host) => isHostAndPort host && isUserInfo user
  | none => isHostAndPort s

/-- The scheme in small letters, and what follows its colon. -/
def scheme? (s : List Char) : Option (List Char × List Char) := do
  let (scheme, rest) ← cut? ':' s
  let first ← scheme.head?
  if first.isAlpha && scheme.all fun c => c.isAlphanum || c == '+' || c == '-' || c == '.' then
    some (scheme.map Char.toLower, rest)
  else none

/-! ### Options -/

/-- What the value of an option must be. An empty value is always allowed. -/
inductive OptionKind where
  | text
  | integer
  | duration
  | switch
  deriving DecidableEq, Repr

/-- The options of a server. -/
def options : List (String × OptionKind) :=
  [("db", .integer), ("protocol", .integer), ("client_name", .text), ("max_retries", .integer),
   ("min_retry_backoff", .duration), ("max_retry_backoff", .duration), ("dial_timeout", .duration),
   ("read_timeout", .duration), ("write_timeout", .duration), ("pool_fifo", .switch),
   ("pool_size", .integer), ("pool_timeout", .duration), ("min_idle_conns", .integer),
   ("max_idle_conns", .integer), ("max_active_conns", .integer)]

/-- Options with a newer and an older name; the older one counts only where the newer is not
given. -/
def renamedOptions : List (String × String) :=
  [("conn_max_idle_time", "idle_timeout"), ("conn_max_lifetime", "max_conn_age")]

/-- The units of durations. -/
def units : List String := ["ns", "us", "µs", "μs", "ms", "s", "m", "h"]

/-- Numbers with units, one after another, read in at most `steps` steps. -/
def isSpans : Nat → List Char → Bool
  | 0, _ => false
  | steps + 1, s =>
    let isNumber (c : Char) : Bool := c.isDigit || c == '.'
    let number := s.takeWhile isNumber
    let unit := (s.dropWhile isNumber).takeWhile (!isNumber ·)
    let rest := (s.dropWhile isNumber).dropWhile (!isNumber ·)
    number.any Char.isDigit && number.count '.' ≤ 1 && units.contains (String.ofList unit) &&
      (rest.isEmpty || isSpans steps rest)

/-- Seconds, or numbers with units after a sign. -/
def isDuration (s : List Char) : Bool :=
  (int64? s).isSome ||
    match s with
    | '-' :: rest => isSpans rest.length rest
    | '+' :: rest => isSpans rest.length rest
    | rest => isSpans rest.length rest

def OptionKind.accepts (kind : OptionKind) (value : List Char) : Bool :=
  value.isEmpty ||
    match kind with
    | .text => true
    | .integer => (int64? value).isSome
    | .duration => isDuration value
    | .switch => ["true", "false", "1", "0"].contains (String.ofList value)

/-- The names and values of a query; what cannot be read is left out. -/
def queryItems (query : List Char) : List (String × List Char) :=
  (fields (· == '&') query).filterMap fun item =>
    if item.contains ';' then none
    else
      let (name, value) := (cut? '=' item).getD (item, [])
      match unescapeText? true name, unescapeText? true value with
      | some name, some value => some (String.ofList name, value)
      | _, _ => none

/-- Every option is known, and its last value is of its kind. -/
def isQuery (secure : Bool) (query : List Char) : Bool :=
  let items := queryItems query
  let given (name : String) : Bool := items.any (·.1 == name)
  let renamed := renamedOptions.map fun (newer, older) =>
    (if given newer then newer else older, OptionKind.duration)
  let known := options ++ renamed ++ (if secure then [("skip_verify", OptionKind.switch)] else [])
  items.all (fun (name, _) => known.any (·.1 == name)) &&
    known.all fun (name, kind) =>
      match items.reverse.lookup name with
      | some value => kind.accepts value
      | none => true

/-! ### Addresses -/

/-- The path names one database or none. -/
def isDatabasePath (path : List Char) : Bool :=
  match fields (· == '/') path with
  | [] => true
  | [database] => (int64? database).isSome
  | _ => false

/-- The path of what follows the scheme, after its authority; `none` when a part is wrong. -/
def path? (s : List Char) : Option (List Char) :=
  match s with
  | '/' :: '/' :: rest =>
    let authority := rest.takeWhile (· != '/')
    if isAuthority authority then unescapeText? false (rest.dropWhile (· != '/')) else none
  | '/' :: _ => unescapeText? false s
  | _ => some []

def isValid (text : String) : Bool :=
  let (address, fragment) := (cut? '#' text.toList).getD (text.toList, [])
  let isControl (c : Char) : Bool := c.toNat < 0x20 || c.toNat == 0x7f
  if address.any isControl || (unescape? false fragment).isNone then false
  else
    match scheme? address with
    | none => false
    | some (scheme, rest) =>
      let (rest, query) := (cut? '?' rest).getD (rest, [])
      match path? rest with
      | none => false
      | some path =>
        let scheme := String.ofList scheme
        if scheme == "unix" then !path.all isBlank && isQuery false query
        else if scheme == "redis" || scheme == "rediss" then
          isDatabasePath path && isQuery (scheme == "rediss") query
        else false

/-- Why there is no cache behind an address. -/
inductive Refusal where
  | invalidUrl
  | unreachable
  deriving DecidableEq, Repr

/-- The message, given the cause as the reader of the address or the network words it. -/
def Refusal.message (cause : String) : Refusal → String
  | invalidUrl => "invalid redis URL: " ++ cause
  | unreachable => "redis connection failed: " ++ cause

/-- Why an address where no server listens is of no use. -/
def refusalOf (text : String) : Refusal :=
  if isValid text then .unreachable else .invalidUrl

end SqlToMongo.Cache.RedisUrl
