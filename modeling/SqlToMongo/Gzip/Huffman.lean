import SqlToMongo.Gzip.Bits

/-!
# Canonical Huffman codes

A code is given by the length of each symbol's word, zero for a symbol without one. Words of a
length are consecutive numbers in the order of their symbols, and shorter words come first.
-/

namespace SqlToMongo.Gzip

/-- The longest word. -/
def maxLength : Nat := 15

/-- A code for reading: how many words there are of each length from one on, and the symbols in the
order of their words. -/
structure Code where
  counts : List Nat
  symbols : Array Nat

namespace Code

/-- The symbols with a word of a length. -/
def symbolsOf (lengths : List Nat) (length : Nat) : List Nat :=
  (lengths.zipIdx.filter (·.1 == length)).map (·.2)

/-- The symbols with words, length by length. -/
def classes (lengths : List Nat) : List (List Nat) :=
  (List.range maxLength).map fun i => symbolsOf lengths (i + 1)

/-- The words that are left over at each length must not be negative; they may be positive only for
a code of a single word. -/
def leftOver? (counts : List Nat) : Option Nat :=
  counts.foldlM (fun left count => if count ≤ 2 * left then some (2 * left - count) else none) 1

/-- The code with these lengths, if there is one. -/
def ofLengths? (lengths : List Nat) : Option Code := do
  let counts := (classes lengths).map (·.length)
  let left ← leftOver? counts
  if left = 0 ∨ counts.foldl Nat.add 0 ≤ 1 then some ⟨counts, (classes lengths).flatten.toArray⟩
  else none

/-- Reads a word bit by bit. Among the words of the current length `first` is the first number and
`index` the place of its symbol; `word` holds the bits so far, doubled. -/
def readFrom (symbols : Array Nat) :
    List Nat → (word first index : Nat) → List Bool → Option (Nat × List Bool)
  | count :: counts, word, first, index, bit :: bits =>
    let word := word + bit.toNat
    if word < first + count then
      (symbols[index + (word - first)]?).map (·, bits)
    else readFrom symbols counts (2 * word) (2 * (first + count)) (index + count) bits
  | _, _, _, _, _ => none

/-- The symbol of the next word. -/
def read? (code : Code) (bits : List Bool) : Option (Nat × List Bool) :=
  readFrom code.symbols code.counts 0 0 0 bits

end Code

/-- The number of the next word of a length, and the words given so far. -/
abbrev WordTable := Nat × Array (List Bool)

/-- Gives the next word of a length to a symbol. -/
def placeWord (length : Nat) (t : WordTable) (symbol : Nat) : WordTable :=
  (t.1 + 1, t.2.setIfInBounds symbol (highFirst length t.1))

/-- Gives words to the symbols of a length. Words of the next length have one more bit. -/
def placeWords (lengths : List Nat) (t : WordTable) (length : Nat) : WordTable :=
  let t := (Code.symbolsOf lengths length).foldl (placeWord length) t
  (2 * t.1, t.2)

/-- The word of each symbol, empty for a symbol without one. -/
def words (lengths : List Nat) : Array (List Bool) :=
  ((List.range maxLength).foldl (fun t i => placeWords lengths t (i + 1))
    (0, (List.replicate lengths.length []).toArray)).2

namespace Weights

/-- A tree as its weight and the depths of its symbols. -/
abbrev Tree := Nat × List (Nat × Nat)

/-- Puts a tree before the first heavier one. -/
def insertTree (t : Tree) : List Tree → List Tree
  | [] => [t]
  | u :: rest => if t.1 < u.1 then t :: u :: rest else u :: insertTree t rest

/-- Two trees under one root. -/
def join (t u : Tree) : Tree :=
  (t.1 + u.1, (t.2 ++ u.2).map fun (symbol, depth) => (symbol, depth + 1))

/-- Joins the two lightest trees until one is left, in `steps` steps at most. -/
def mergeTrees : Nat → List Tree → List (Nat × Nat)
  | steps + 1, t :: u :: rest => mergeTrees steps (insertTree (join t u) rest)
  | _, t :: _ => t.2
  | _, [] => []

/-- The symbols with a weight as trees. -/
def leaves (weights : List Nat) : List Tree :=
  weights.zipIdx.filterMap fun (weight, symbol) =>
    if weight = 0 then none else some (weight, [(symbol, 0)])

/-- The length of each symbol's word in a best code for the weights. -/
def bestLengths (weights : List Nat) : List Nat :=
  let leaves := leaves weights
  let depths := mergeTrees leaves.length (leaves.foldr insertTree [])
  (List.range weights.length).map fun symbol => (depths.lookup symbol).getD 0

/-- The lengths of a code for `count` symbols whose words differ by one bit at most. -/
def evenLengths (count : Nat) : List Nat :=
  let width := Nat.log2 count
  let short := Nat.pow 2 (width + 1) - count
  List.replicate short width ++ List.replicate (count - short) (width + 1)

/-- The lengths of a good code with words of at most `maxLength` bits: weights are evened out until
their best code fits, `steps` times at most; then they do not count any more. -/
def boundedLengths : Nat → List Nat → List Nat
  | 0, weights => evenLengths weights.length
  | steps + 1, weights =>
    let lengths := bestLengths weights
    if lengths.all (· ≤ maxLength) then lengths
    else boundedLengths steps (weights.map fun w => (w + 1) / 2)

end Weights

end SqlToMongo.Gzip
