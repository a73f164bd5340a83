import SqlToMongo.Gzip.Deflate
import SqlToMongo.Gzip.Inflate

/-!
# Gzip files

A file is one or more members, each a header, packed data, and the check sum and length of what the
data unpacks to. Data is packed to a file of one member.
-/

namespace SqlToMongo.Gzip

/-- One bit of a check sum. -/
def checkStep (sum : UInt32) : UInt32 :=
  if sum &&& 1 = 1 then (sum >>> 1) ^^^ 0xEDB88320 else sum >>> 1

/-- The cyclic redundancy check of bytes. -/
def checkSum (bytes : List UInt8) : Nat :=
  let byte (sum : UInt32) (b : UInt8) : UInt32 :=
    (List.range 8).foldl (fun sum _ => checkStep sum) (sum ^^^ b.toUInt32)
  (~~~(bytes.foldl byte 0xFFFFFFFF)).toNat

/-- A header without a name and a time. -/
def header : List UInt8 := [0x1f, 0x8b, 8, 0, 0, 0, 0, 0, 0, 0xff]

/-- The file of one member. -/
def pack (data : List UInt8) : List UInt8 :=
  header ++ deflate data ++ littleEndian 4 (checkSum data) ++ littleEndian 4 data.length

/-- The bytes after a text that a zero ends. -/
def skipText? : List UInt8 → Option (List UInt8)
  | [] => none
  | b :: rest => if b = 0 then some rest else skipText? rest

/-- The bytes after `count` bytes. -/
def skip? (count : Nat) (bytes : List UInt8) : Option (List UInt8) :=
  if bytes.length < count then none else some (bytes.drop count)

/-- The bytes after the header of a member. -/
def skipHeader? (bytes : List UInt8) : Option (List UInt8) := do
  let flags ← match bytes with
    | 0x1f :: 0x8b :: 8 :: flags :: _ => some flags
    | _ => none
  let has (i : Nat) : Bool := flags.toNat / Nat.pow 2 i % 2 == 1
  let rest ← skip? 10 bytes
  let rest ← if has 2 then (skip? 2 rest).bind (skip? (ofLittleEndian (rest.take 2))) else some rest
  let rest ← if has 3 then skipText? rest else some rest
  let rest ← if has 4 then skipText? rest else some rest
  if has 1 then
    let sum := checkSum (bytes.take (bytes.length - rest.length)) % 65536
    if ofLittleEndian (rest.take 2) = sum then skip? 2 rest else none
  else some rest

/-- The data of the first member, and the bytes after it. -/
def readMember? (bytes : List UInt8) : Option (List UInt8 × List UInt8) := do
  let (data, rest) ← inflate? (← skipHeader? bytes)
  let after ← skip? 8 rest
  if ofLittleEndian (rest.take 4) = checkSum data ∧
      ofLittleEndian ((rest.drop 4).take 4) = data.length % 4294967296 then
    some (data, after)
  else none

/-- The data of all members; each has at least eighteen bytes. -/
def readMembers? : Nat → List UInt8 → Option (List UInt8)
  | 0, _ => none
  | steps + 1, bytes => do
    let (data, rest) ← readMember? bytes
    if rest.isEmpty then some data else (readMembers? steps rest).map (data ++ ·)

/-- The data of a file. -/
def unpack? (bytes : List UInt8) : Option (List UInt8) :=
  readMembers? (bytes.length + 1) bytes

/-- The file of data, if that is shorter than the data. -/
def pack? (data : List UInt8) : Option (List UInt8) :=
  let packed := pack data
  if packed.length < data.length then some packed else none

theorem pack?_eq_some {data packed : List UInt8} (h : pack? data = some packed) :
    packed = pack data ∧ packed.length < data.length := by
  simp only [pack?] at h
  split at h
  next shorter => exact Option.some.inj h ▸ ⟨rfl, shorter⟩
  next => cases h

end SqlToMongo.Gzip
