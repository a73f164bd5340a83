import SqlToMongo.Text.Utf8

/-!
# Base64

Bytes as text, six bits a character, padded to groups of four. Line ends are skipped when reading,
and the bits that pad the last group may be anything.
-/

namespace SqlToMongo.Text.Base64

/-- The 64 characters in order. -/
def alphabet : List Char :=
  "ABCDEFGHIJKLMNOPQRSTUVWXYZabcdefghijklmnopqrstuvwxyz0123456789+/".toList

/-- The character of six bits. -/
def letter (n : Nat) : Char := alphabet.getD (n % 64) 'A'

/-- The six bits of a character. -/
def value? (c : Char) : Option Nat :=
  if 'A' ≤ c ∧ c ≤ 'Z' then some (c.toNat - 'A'.toNat)
  else if 'a' ≤ c ∧ c ≤ 'z' then some (c.toNat - 'a'.toNat + 26)
  else if '0' ≤ c ∧ c ≤ '9' then some (c.toNat - '0'.toNat + 52)
  else if c = '+' then some 62
  else if c = '/' then some 63
  else none

def encode : List UInt8 → List Char
  | [] => []
  | [a] =>
    let n := a.toNat * 65536
    [letter (n / 262144), letter (n / 4096), '=', '=']
  | [a, b] =>
    let n := a.toNat * 65536 + b.toNat * 256
    [letter (n / 262144), letter (n / 4096), letter (n / 64), '=']
  | a :: b :: c :: rest =>
    let n := a.toNat * 65536 + b.toNat * 256 + c.toNat
    letter (n / 262144) :: letter (n / 4096) :: letter (n / 64) :: letter n :: encode rest

/-- CR and LF. -/
def isLineEnd (b : UInt8) : Bool := b == 10 || b == 13

/-- The bytes of the letters of a group; fewer than two letters have none. -/
def groupBytes : List Nat → List UInt8
  | [p, q] => [UInt8.ofNat ((p * 64 + q) / 16)]
  | [p, q, r] =>
    let n := (p * 64 + q) * 64 + r
    [UInt8.ofNat (n / 1024), UInt8.ofNat (n / 4)]
  | [p, q, r, s] =>
    let n := ((p * 64 + q) * 64 + r) * 64 + s
    [UInt8.ofNat (n / 65536), UInt8.ofNat (n / 256), UInt8.ofNat n]
  | _ => []

/-- What follows the padding must be line ends. -/
def afterPadding (group : List Nat) (index : Nat) (rest : List UInt8) : Except Nat (List UInt8) :=
  match rest.dropWhile isLineEnd with
  | [] => .ok (groupBytes group)
  | _ => .error (index + (rest.takeWhile isLineEnd).length)

/-- The padding of a group, of which the first sign has been read. -/
def padding (group : List Nat) (index : Nat) (rest : List UInt8) : Except Nat (List UInt8) :=
  if group.length = 3 then afterPadding group index rest
  else
    let index := index + (rest.takeWhile isLineEnd).length
    match rest.dropWhile isLineEnd with
    | [] => .error index
    | b :: rest => if b = 61 then afterPadding group (index + 1) rest else .error (index - 1)

/-- The bytes of a text after the letters of a group, or the place of what is wrong. -/
def decodeFrom (group : List Nat) (index : Nat) : List UInt8 → Except Nat (List UInt8)
  | [] => if group.isEmpty then .ok [] else .error (index - group.length)
  | b :: rest =>
    if isLineEnd b then decodeFrom group (index + 1) rest
    else
      match value? (Char.ofNat b.toNat) with
      | some n =>
        if group.length = 3 then
          (decodeFrom [] (index + 1) rest).map (groupBytes (group ++ [n]) ++ ·)
        else decodeFrom (group ++ [n]) (index + 1) rest
      | none =>
        if b ≠ 61 ∨ group.length < 2 then .error index else padding group (index + 1) rest

/-- The bytes of a text, or the place of what is wrong. -/
def decode (s : String) : Except Nat (List UInt8) := decodeFrom [] 0 (utf8 s)

def decode? (s : String) : Option (List UInt8) := (decode s).toOption

end SqlToMongo.Text.Base64
