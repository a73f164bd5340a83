import SqlToMongo.Cache.Lifetime
import SqlToMongo.Gzip.File
import SqlToMongo.Json.Reader
import SqlToMongo.Json.Writer
import SqlToMongo.Text.Base64
import SqlToMongo.Text.Split
import SqlToMongo.Text.Utf8

/-!
# Cached conversions

An entry holds the bytes of a conversion, packed when they are many and packing makes them fewer.
-/

namespace SqlToMongo.Cache

open Text

structure Entry where
  data : List UInt8
  packed : Bool
  /-- The moment from which the entry no longer counts; zero is never. -/
  expiresAt : Int
  deriving DecidableEq, Inhabited, Repr

namespace Entry

/-- Longer values are packed. -/
def packingThreshold : Nat := 1024

/-- The bytes to keep for a value, and whether they are packed. -/
def store (bytes : List UInt8) : List UInt8 × Bool :=
  if packingThreshold < bytes.length then
    match Gzip.pack? bytes with
    | some packed => (packed, true)
    | none => (bytes, false)
  else (bytes, false)

/-- The entry of a value stored at a moment. -/
def create (value : String) (lifetime : Lifetime) (now : Int) : Entry :=
  let (data, packed) := store (utf8 value)
  ⟨data, packed, lifetime.expiry now⟩

/-- How many bytes packing saved for a value. -/
def saved (e : Entry) (value : String) : Nat :=
  (utf8 value).length - e.data.length

def isExpired (e : Entry) (now : Int) : Bool :=
  e.expiresAt != 0 && e.expiresAt ≤ now

/-- The bytes of the value; `none` when they do not unpack. -/
def bytes? (e : Entry) : Option (List UInt8) :=
  if e.packed then Gzip.unpack? e.data else some e.data

/-- The value. -/
def value? (e : Entry) : Option String :=
  e.bytes?.map ofUtf8

theorem length_create_add_saved (value : String) (lifetime : Lifetime) (now : Int) :
    let e := create value lifetime now
    e.data.length + e.saved value = (utf8 value).length := by
  simp only [create, store, saved]
  split
  · cases h : Gzip.pack? (utf8 value) with
    | none => simp
    | some packed =>
      have := (Gzip.pack?_eq_some h).2
      simp only
      omega
  · simp

/-! ### The stored text -/

/-- The entry as JSON; what is false or zero is left out. -/
def toJson (e : Entry) : Json :=
  .object <| [("d", .string (String.ofList (Base64.encode e.data)))] ++
    (if e.packed then [("c", .bool true)] else []) ++
    (if e.expiresAt = 0 then [] else [("e", .int e.expiresAt)])

def write (e : Entry) : String :=
  e.toJson.compact Json.escapeMarkup

/-- A byte in a list of numbers. -/
def byte? : Json → Option UInt8
  | .null => some 0
  | .number text => do
    let n ← digitsValue? text.toList
    if n < 256 then some (UInt8.ofNat n) else none
  | _ => none

/-- The entry with one member of the stored text. Names count in either case, unknown ones do not
matter, and null changes nothing but the data. -/
def withMember (e : Entry) (name : String) (value : Json) : Option Entry :=
  match name.toLower, value with
  | "d", .null => some { e with data := [] }
  | "d", .string s => (Base64.decode? s).map fun data => { e with data }
  | "d", .array items => (items.mapM byte?).map fun data => { e with data }
  | "d", _ => none
  | "c", .null => some e
  | "c", .bool packed => some { e with packed }
  | "c", _ => none
  | "e", .null => some e
  | "e", .number text => (int64? text.toList).map fun expiresAt => { e with expiresAt }
  | "e", _ => none
  | _, _ => some e

/-- The entry of a stored text. -/
def read? (text : String) : Option Entry :=
  match Json.read? text with
  | some (.object members) =>
    members.foldlM (fun e (name, value) => withMember e name value) ⟨[], false, 0⟩
  | some .null => some ⟨[], false, 0⟩
  | _ => none

end Entry

end SqlToMongo.Cache
