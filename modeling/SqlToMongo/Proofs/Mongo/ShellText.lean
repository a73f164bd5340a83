import SqlToMongo.Mongo.Shell
import SqlToMongo.Proofs.Json.Printing
import SqlToMongo.Proofs.Text.Integer

/-!
# Shell text of values

A value without fractions is written as JSON that can be read back. Integers become numbers that
are read as the same integers, so nothing of the value is lost: its kinds, the order of its names
and the names that occur more than once all come back.

## Main result

`value_faithful`: the shell text of a value is a JSON text of this value and of no other.
-/

namespace SqlToMongo

open Text

theorem Json.numberText_int (n : Int) : Json.NumberText (toString n).toList := by
  have digits (n : Nat) : Json.Digits (Nat.toDigits 10 n) := ⟨toDigits_ne_nil n, isDigit_toDigits n⟩
  have whole (n : Nat) : Json.WholeText (Nat.toDigits 10 n) := by
    by_cases zero : n = 0
    · subst zero
      exact .zero
    · exact .digits (digits n) (head?_toDigits (Nat.pos_of_ne_zero zero))
  cases n with
  | ofNat n =>
    have unsigned : [] ∈ [[], ['-']] := List.mem_cons_self
    have isText := Json.NumberText.intro unsigned (whole n) .none .none
    rw [toList_toString_ofNat]
    simpa using isText
  | negSucc n =>
    have minus : ['-'] ∈ [[], ['-']] := List.mem_cons_of_mem _ List.mem_cons_self
    have isText := Json.NumberText.intro minus (whole (n + 1)) .none .none
    rw [toList_toString_negSucc]
    simpa using isText

namespace Mongo

namespace Value

/-! ### Values without fractions -/

mutual

/-- Whether a value has no fractions, and only integers of 64 bits. -/
def isPlain : Value → Bool
  | .int n => Decimal.fitsInt64 n
  | .float _ => false
  | .list items => arePlain items
  | .doc entries => havePlain entries
  | _ => true

def arePlain : List Value → Bool
  | [] => true
  | item :: rest => isPlain item && arePlain rest

def havePlain : List (String × Value) → Bool
  | [] => true
  | (_, value) :: rest => isPlain value && havePlain rest

end

mutual

/-- The value that JSON stands for, when its numbers are integers of 64 bits. -/
def ofJson? : Json → Option Value
  | .null => some .null
  | .bool b => some (.bool b)
  | .number text => (int64? text.toList).map .int
  | .string s => some (.string s)
  | .array items => (ofItems? items).map .list
  | .object members => (ofMembers? members).map .doc

def ofItems? : List Json → Option (List Value)
  | [] => some []
  | item :: rest => do
    let value ← ofJson? item
    let values ← ofItems? rest
    return value :: values

def ofMembers? : List (String × Json) → Option (List (String × Value))
  | [] => some []
  | (name, member) :: rest => do
    let value ← ofJson? member
    let entries ← ofMembers? rest
    return (name, value) :: entries

end

variable (float : Decimal.Binary64 → Json)

mutual

theorem isNumeric_toJson : ∀ v : Value, v.isPlain = true → Json.IsNumeric (v.toJson float)
  | .null, _ | .bool _, _ | .string _, _ => trivial
  | .int n, _ => Json.numberText_int n
  | .list items, plain => areNumeric_itemsToJson items plain
  | .doc entries, plain => haveNumeric_entriesToJson entries plain

theorem areNumeric_itemsToJson : ∀ items : List Value, arePlain items = true →
    Json.AreNumeric (itemsToJson float items)
  | [], _ => trivial
  | item :: rest, plain => by
    have ⟨first, others⟩ := Bool.and_eq_true_iff.mp plain
    exact ⟨isNumeric_toJson item first, areNumeric_itemsToJson rest others⟩

theorem haveNumeric_entriesToJson : ∀ entries : List (String × Value), havePlain entries = true →
    Json.HaveNumeric (entriesToJson float entries)
  | [], _ => trivial
  | (_, value) :: rest, plain => by
    have ⟨first, others⟩ := Bool.and_eq_true_iff.mp plain
    exact ⟨isNumeric_toJson value first, haveNumeric_entriesToJson rest others⟩

end

mutual

/-- A value without fractions comes back from its JSON. -/
theorem ofJson?_toJson : ∀ v : Value, v.isPlain = true → ofJson? (v.toJson float) = some v
  | .null, _ | .bool _, _ | .string _, _ => rfl
  | .int n, fits => by
    rw [toJson, Json.int, ofJson?, int64?_toString fits]
    rfl
  | .list items, plain => by
    rw [toJson, ofJson?, ofItems?_itemsToJson items plain]
    rfl
  | .doc entries, plain => by
    rw [toJson, ofJson?, ofMembers?_entriesToJson entries plain]
    rfl

theorem ofItems?_itemsToJson : ∀ items : List Value, arePlain items = true →
    ofItems? (itemsToJson float items) = some items
  | [], _ => rfl
  | item :: rest, plain => by
    have ⟨first, others⟩ := Bool.and_eq_true_iff.mp plain
    rw [itemsToJson, ofItems?, ofJson?_toJson item first, ofItems?_itemsToJson rest others]
    rfl

theorem ofMembers?_entriesToJson : ∀ entries : List (String × Value), havePlain entries = true →
    ofMembers? (entriesToJson float entries) = some entries
  | [], _ => rfl
  | (_, value) :: rest, plain => by
    have ⟨first, others⟩ := Bool.and_eq_true_iff.mp plain
    rw [entriesToJson, ofMembers?, ofJson?_toJson value first, ofMembers?_entriesToJson rest others]
    rfl

end

end Value

namespace Shell

/-! ### The shell text -/

theorem denotes_value {indent : String} (isIndent : Json.Space indent.toList) (depth : Nat)
    {v : Value} (plain : v.isPlain = true) :
    Json.Denotes (v.toJson number) (value indent depth v).toList := by
  have isText := Json.valueText_pretty Json.faithful_escapeControls isIndent (v.toJson number)
    (Value.isNumeric_toJson number v plain) depth
  have denotes := Json.Denotes.intro .nil isText .nil
  rwa [List.nil_append, List.append_nil] at denotes

/-- The text of a value without fractions is a JSON text, with any indentation of space. Whatever
JSON it is a text of stands for the value, and the reader that looks deep enough finds it. So two
values with one text are the same. A string or a name ends at its own quote, wherever it stands. -/
theorem value_faithful {indent : String} (isIndent : ∀ c ∈ indent.toList, Json.isSpace c = true)
    (depth : Nat) {v : Value} (plain : v.isPlain = true) :
    Json.Denotes (v.toJson number) (value indent depth v).toList ∧
    (∀ j, Json.Denotes j (value indent depth v).toList → Value.ofJson? j = some v) ∧
    (∀ limit, Json.nesting (v.toJson number) ≤ limit →
      (Json.readWithin? limit (value indent depth v)).bind Value.ofJson? = some v) ∧
    (∀ (indent' : String) (depth' : Nat) (w : Value),
      (∀ c ∈ indent'.toList, Json.isSpace c = true) → w.isPlain = true →
      value indent' depth' w = value indent depth v → w = v) ∧
    ∀ (s : String) (rest : List Char),
      Json.stringTail (((Json.escaped Json.escapeControls s).toList ++ '"' :: rest).length + 1) []
        ((Json.escaped Json.escapeControls s).toList ++ '"' :: rest) = some (s, rest) := by
  have denotes := denotes_value isIndent depth plain
  have readBack := Value.ofJson?_toJson number v plain
  have standsFor : ∀ j, Json.Denotes j (value indent depth v).toList →
      Value.ofJson? j = some v := by
    intro j isText
    rwa [isText.unique denotes]
  refine ⟨denotes, standsFor, ?_, ?_, ?_⟩
  · intro limit shallow
    rw [Json.readWithin?_of_denotes denotes shallow]
    exact readBack
  · intro indent' depth' w isIndent' plain' same
    -- The JSON of `w` has the text of `v`, so it stands for both.
    have other := denotes_value isIndent' depth' plain'
    rw [same] at other
    have back := Value.ofJson?_toJson number w plain'
    exact Option.some.inj (back.symm.trans (standsFor _ other))
  · intro s rest
    have isText := Json.stringText_escaped Json.faithful_escapeControls s
    have read := Json.stringTail_whole isText rest
    rwa [String.ofList_toList] at read

/-- A name that occurs twice, a quote, a backslash, controls, a line separator, the least integer
and empty brackets. -/
def awkwardValue : Value :=
  .doc [("\"", .string "\\\x00\n\u2028"),
    ("\"", .list [.int (-9223372036854775808), .doc [], .list []]),
    ("", .doc [("$or", .null), ("\x7f", .bool false)])]

theorem value_faithful_awkward :
    awkwardValue.isPlain = true ∧
    Json.Denotes (awkwardValue.toJson number) (value "\t " 2 awkwardValue).toList ∧
    (Json.readWithin? 3 (value "\t " 2 awkwardValue)).bind Value.ofJson? = some awkwardValue ∧
    value "" 7 .null ≠ value "\t " 2 awkwardValue := by
  have isIndent : ∀ c ∈ "\t ".toList, Json.isSpace c = true := by decide
  have plain : awkwardValue.isPlain = true := by decide
  have shallow : Json.nesting (awkwardValue.toJson number) ≤ 3 := by decide
  have ⟨denotes, _, read, unique, _⟩ := value_faithful isIndent 2 plain
  refine ⟨plain, denotes, read 3 shallow, fun same => ?_⟩
  have isValue : Value.null = awkwardValue := unique "" 7 .null (by decide) rfl same
  exact Value.noConfusion isValue

example : value "\t" 0 (.doc [("a", .list [.int 1, .string "\n"]), ("a", .list [])]) =
    "\x7b\n\t\"a\": [\n\t\t1,\n\t\t\"\\n\"\n\t],\n\t\"a\": []\n\x7d" := by
  cbv

end Shell

end Mongo

end SqlToMongo
