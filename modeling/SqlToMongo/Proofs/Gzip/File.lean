import SqlToMongo.Gzip.File
import SqlToMongo.Proofs.Gzip.Blocks

/-!
# Files are unpacked to their data

A file that is packed here has one member without optional parts. Its check sum and its length are
those of the data, so they agree with what is unpacked.

## Main result

`unpack?_pack`: the file of data is unpacked to the data.
-/

namespace SqlToMongo.Gzip

theorem skip?_append {front rest : List UInt8} {count : Nat} (size : front.length = count) :
    skip? count (front ++ rest) = some rest := by
  subst size
  simp [skip?]

theorem skipHeader?_header (rest : List UInt8) : skipHeader? (header ++ rest) = some rest := by
  have skipped : skip? 10 (header ++ rest) = some rest := skip?_append rfl
  -- Without flags nothing stands between the header and the packed data.
  simp only [skipHeader?, skipped, Option.bind_eq_bind]
  rfl

theorem checkSum_lt (bytes : List UInt8) : checkSum bytes < 256 ^ 4 :=
  UInt32.toNat_lt _

theorem readMember?_pack (data : List UInt8) : readMember? (pack data) = some (data, []) := by
  let trailer := littleEndian 4 (checkSum data) ++ littleEndian 4 data.length
  have whole : pack data = header ++ (deflate data ++ trailer) := by simp [pack, trailer]
  have sums := length_littleEndian 4 (checkSum data)
  have sizes := length_littleEndian 4 data.length
  have skipped : skip? 8 trailer = some [] := by
    have all : (littleEndian 4 (checkSum data) ++ littleEndian 4 data.length).length = 8 := by
      rw [List.length_append, sums, sizes]
    simpa using @skip?_append _ [] 8 all
  have sum : ofLittleEndian (trailer.take 4) = checkSum data := by
    rw [List.take_left' sums, ofLittleEndian_littleEndian, Nat.mod_eq_of_lt (checkSum_lt data)]
  have size : ofLittleEndian ((trailer.drop 4).take 4) = data.length % 4294967296 := by
    rw [List.drop_left' sums, List.take_of_length_le sizes.le, ofLittleEndian_littleEndian]
    rfl
  simp [readMember?, whole, skipHeader?_header, inflate?_deflate, skipped, sum, size]

theorem unpack?_pack (data : List UInt8) : unpack? (pack data) = some data := by
  rw [unpack?, readMembers?, readMember?_pack]
  rfl

/-- What is packed is unpacked to the data. -/
theorem unpack?_of_pack? {data packed : List UInt8} (made : pack? data = some packed) :
    unpack? packed = some data := by
  obtain ⟨rfl, _⟩ := pack?_eq_some made
  exact unpack?_pack data

end SqlToMongo.Gzip
