import Mathlib
import SqlToMongo.Proofs.Decimal.Writing
import SqlToMongo.Proofs.Mongo.Merging
import SqlToMongo.Proofs.Mongo.ShellText

/-!
# Arguments of shell calls

Values whose numbers are finite are written as different JSON, also when they have fractions: a
number with a fraction keeps its point or its exponent, and an integer has neither. The text of an
argument tells where it ends, so the arguments of a call can be read off one after another. A point
in them stands behind a gap.

## Main results

`Value.toJson_injective`: regular values have different JSON.
`argument_unique`, `closing_unique`: the arguments of a call tell where they end.
`guarded_argument`: a point in an argument stands behind a gap.
-/

namespace SqlToMongo.Mongo

open Decimal Text

/-! ### Values -/

namespace Shell

theorem pointed_numberStyle : numberStyle.Pointed :=
  ⟨rfl, .inl rfl⟩

theorem number_of_isFinite {x : Binary64} (finite : x.isFinite = true) :
    number x = .number (numberStyle.write x) := by
  rw [number, if_pos finite]

end Shell

namespace Value

mutual

/-- Numbers of the grammar are all that a regular value has. -/
theorem isNumeric_of_regular : ∀ v : Value, v.Regular → Json.IsNumeric (v.toJson Shell.number)
  | .null, _ | .bool _, _ | .string _, _ => trivial
  | .int n, _ => Json.numberText_int n
  | .float x, regular => by
    rw [toJson, Shell.number_of_isFinite (regular_float.mp regular)]
    exact NumberStyle.numberText_write Shell.pointed_numberStyle x
  | .list items, regular => areNumeric_of_regular items (regular_list.mp regular)
  | .doc entries, regular => haveNumeric_of_regular entries (regular_doc.mp regular).2

theorem areNumeric_of_regular : ∀ items : List Value, (∀ item ∈ items, item.Regular) →
    Json.AreNumeric (itemsToJson Shell.number items)
  | [], _ => trivial
  | item :: rest, regular => by
    obtain ⟨first, others⟩ := List.forall_mem_cons.mp regular
    exact ⟨isNumeric_of_regular item first, areNumeric_of_regular rest others⟩

theorem haveNumeric_of_regular : ∀ entries : List (String × Value),
    (∀ entry ∈ entries, entry.2.Regular) → Json.HaveNumeric (entriesToJson Shell.number entries)
  | [], _ => trivial
  | (_, value) :: rest, regular => by
    obtain ⟨first, others⟩ := List.forall_mem_cons.mp regular
    exact ⟨isNumeric_of_regular value first, haveNumeric_of_regular rest others⟩

end

theorem toJson_int_injective {m n : Int}
    (same : (int m).toJson Shell.number = (int n).toJson Shell.number) : m = n := by
  have texts : toString m = toString n := Json.number.inj same
  rwa [Int.toString_eq_repr, Int.toString_eq_repr, Int.repr_inj] at texts

/-- A number with a fraction is written as no other value. -/
theorem eq_float_of_toJson {v : Value} {x : Binary64} (regular : v.Regular)
    (finite : x.isFinite = true) (same : v.toJson Shell.number = (float x).toJson Shell.number) :
    v = .float x := by
  have text : (float x).toJson Shell.number = .number (Shell.numberStyle.write x) :=
    Shell.number_of_isFinite finite
  rw [text] at same
  cases v with
  | int n =>
    have digits : toString n = Shell.numberStyle.write x := Json.number.inj same
    exact absurd digits.symm (NumberStyle.write_ne_toString Shell.pointed_numberStyle x n)
  | float y =>
    rw [toJson, Shell.number_of_isFinite (regular_float.mp regular)] at same
    have number := NumberStyle.write_injective Shell.pointed_numberStyle (Json.number.inj same)
    rw [number]
  | null | bool | string | list | doc => simp [toJson] at same

mutual

/-- Regular values have different JSON. -/
theorem toJson_injective : ∀ {v w : Value}, v.Regular → w.Regular →
    v.toJson Shell.number = w.toJson Shell.number → v = w
  | .float x, w, regular, regular', same =>
    (eq_float_of_toJson regular' (regular_float.mp regular) same.symm).symm
  | v, .float x, regular, regular', same =>
    eq_float_of_toJson regular (regular_float.mp regular') same
  | .null, .null, _, _, _ => rfl
  | .bool a, .bool b, _, _, same => congrArg bool (Json.bool.inj same)
  | .int m, .int n, _, _, same => congrArg int (toJson_int_injective same)
  | .string s, .string t, _, _, same => congrArg string (Json.string.inj same)
  | .list items, .list items', regular, regular', same => by
    have inner := Json.array.inj same
    rw [itemsToJson_injective (regular_list.mp regular) (regular_list.mp regular') inner]
  | .doc entries, .doc entries', regular, regular', same => by
    have inner := Json.object.inj same
    rw [entriesToJson_injective (regular_doc.mp regular).2 (regular_doc.mp regular').2 inner]

theorem itemsToJson_injective : ∀ {items items' : List Value}, (∀ item ∈ items, item.Regular) →
    (∀ item ∈ items', item.Regular) →
    itemsToJson Shell.number items = itemsToJson Shell.number items' → items = items'
  | [], [], _, _, _ => rfl
  | item :: rest, item' :: rest', regular, regular', same => by
    obtain ⟨first, others⟩ := List.cons.inj same
    obtain ⟨regularItem, regularRest⟩ := List.forall_mem_cons.mp regular
    obtain ⟨regularItem', regularRest'⟩ := List.forall_mem_cons.mp regular'
    rw [toJson_injective regularItem regularItem' first,
      itemsToJson_injective regularRest regularRest' others]

theorem entriesToJson_injective : ∀ {entries entries' : List (String × Value)},
    (∀ entry ∈ entries, entry.2.Regular) → (∀ entry ∈ entries', entry.2.Regular) →
    entriesToJson Shell.number entries = entriesToJson Shell.number entries' → entries = entries'
  | [], [], _, _, _ => rfl
  | (key, value) :: rest, (key', value') :: rest', regular, regular', same => by
    obtain ⟨first, others⟩ := List.cons.inj same
    obtain ⟨keys, values⟩ := Prod.mk.inj first
    obtain ⟨regularValue, regularRest⟩ := List.forall_mem_cons.mp regular
    obtain ⟨regularValue', regularRest'⟩ := List.forall_mem_cons.mp regular'
    have equal : value = value' := toJson_injective regularValue regularValue' values
    rw [keys, equal, entriesToJson_injective regularRest regularRest' others]

end

end Value

namespace Shell

/-! ### Arguments -/

theorem valueText_argument {v : Value} (regular : v.Regular) :
    Json.ValueText (v.toJson number) (argument v).toList := by
  have isIndent : Json.Space "  ".toList := by simp [Json.Space, Json.isSpace]
  exact Json.valueText_pretty Json.faithful_escapeControls isIndent _
    (v.isNumeric_of_regular regular) 0

/-- No argument goes on into another one. -/
theorem argument_unique {v w : Value} (regular : v.Regular) (regular' : w.Regular)
    {rest rest' : List Char} (follows : Json.Follows rest) (follows' : Json.Follows rest')
    (same : (argument v).toList ++ rest = (argument w).toList ++ rest') : v = w ∧ rest = rest' := by
  obtain ⟨json, rests⟩ := (valueText_argument regular).unique_append (valueText_argument regular')
    follows follows' same
  exact ⟨Value.toJson_injective regular regular' json, rests⟩

/-- The arguments behind the first one, up to the end of the call. -/
def closing (vs : List Value) : List Char :=
  (vs.flatMap fun v => ',' :: ' ' :: (argument v).toList) ++ [')']

/-- Behind the first text, each comes with its separator. -/
theorem toList_intercalate_cons (separator first : String) (rest : List String) :
    (separator.intercalate (first :: rest)).toList =
      first.toList ++ rest.flatMap fun text => separator.toList ++ text.toList := by
  rw [String.toList_intercalate]
  induction rest generalizing first with
  | nil => simp
  | cons next rest ih =>
    have others := ih next
    simp only [List.map_cons] at others ⊢
    rw [List.intercalate_cons_cons, others]
    simp

theorem toList_call (name : String) (v : Value) (vs : List Value) :
    (call name (v :: vs)).toList = name.toList ++ '(' :: ((argument v).toList ++ closing vs) := by
  simp only [call, closing, String.toList_append, List.map_cons, toList_intercalate_cons]
  simp [List.flatMap_map]

theorem follows_closing (vs : List Value) (rest : List Char) :
    Json.Follows (closing vs ++ rest) := by
  cases vs <;> simp [closing, Json.Follows] <;> decide

/-- The arguments of a call end where they end: a comma or a parenthesis tells whether there is
another one. -/
theorem closing_unique : ∀ {vs ws : List Value}, (∀ v ∈ vs, v.Regular) → (∀ w ∈ ws, w.Regular) →
    ∀ {rest rest' : List Char}, closing vs ++ rest = closing ws ++ rest' → vs = ws ∧ rest = rest'
  | [], [], _, _, _, _, same => by simpa [closing] using same
  | [], _ :: _, _, _, _, _, same => by simp [closing] at same
  | _ :: _, [], _, _, _, _, same => by simp [closing] at same
  | v :: vs, w :: ws, regular, regular', rest, rest', same => by
    have behind : (argument v).toList ++ (closing vs ++ rest) =
        (argument w).toList ++ (closing ws ++ rest') := by
      simpa [closing] using same
    obtain ⟨regularFirst, regularOthers⟩ := List.forall_mem_cons.mp regular
    obtain ⟨regularFirst', regularOthers'⟩ := List.forall_mem_cons.mp regular'
    obtain ⟨rfl, others⟩ := argument_unique regularFirst regularFirst' (follows_closing vs rest)
      (follows_closing ws rest') behind
    obtain ⟨rfl, rfl⟩ := closing_unique regularOthers regularOthers' others
    exact ⟨rfl, rfl⟩

/-! ### Points behind gaps -/

/-- Every point in the text stands behind a gap. -/
def Guarded (s : List Char) : Prop :=
  ∀ front back, s = front ++ '.' :: back → ∃ c ∈ front, isGap c = true

theorem guarded_of_notMem {s : List Char} (pointless : '.' ∉ s) : Guarded s := by
  rintro front back rfl
  simp at pointless

theorem guarded_gap {c : Char} (gap : isGap c = true) (s : List Char) : Guarded (c :: s) := by
  intro front back same
  cases front with
  | nil =>
    obtain rfl : c = '.' := (List.cons.inj same).1
    exact absurd gap (by decide)
  | cons d front =>
    obtain rfl : c = d := (List.cons.inj same).1
    exact ⟨c, List.mem_cons_self, gap⟩

theorem Guarded.append {s t : List Char} (first : Guarded s) (second : Guarded t) :
    Guarded (s ++ t) := by
  intro front back same
  rcases List.append_eq_append_iff.mp same with ⟨middle, rfl, inside⟩ | ⟨middle, rfl, inside⟩
  · obtain ⟨c, member, gap⟩ := second middle back inside
    exact ⟨c, List.mem_append_right s member, gap⟩
  · cases middle with
    | nil =>
      obtain ⟨c, member, _⟩ := second [] back (by simpa using inside.symm)
      simp at member
    | cons d middle =>
      obtain rfl : '.' = d := (List.cons.inj inside).1
      exact first front middle rfl

/-- What a call can have as an argument: an integer, or anything in brackets. -/
def isFramed : Value → Bool
  | .int _ | .list _ | .doc _ => true
  | _ => false

theorem guarded_block (indent : String) (depth : Nat) {opening closing : String}
    (pointless : '.' ∉ (opening ++ closing).toList) (lines : List String) :
    Guarded (Json.block indent depth opening closing lines).toList := by
  cases lines with
  | nil => exact guarded_of_notMem pointless
  | cons line lines =>
    have start : '.' ∉ opening.toList := by
      intro member
      exact pointless (by simp [member])
    have ⟨rest, shape⟩ : ∃ rest, (Json.block indent depth opening closing (line :: lines)).toList =
        opening.toList ++ '\n' :: rest := ⟨_, by simp [Json.block]; rfl⟩
    rw [shape]
    exact (guarded_of_notMem start).append (guarded_gap (by decide) rest)

theorem guarded_argument {v : Value} (framed : isFramed v = true) :
    Guarded (argument v).toList := by
  cases v with
  | int n =>
    apply guarded_of_notMem
    intro member
    exact absurd (eq_minus_or_isDigit member) (by decide)
  | list items => exact guarded_block _ _ (by decide) _
  | doc entries => exact guarded_block _ _ (by decide) _
  | null | bool | float | string => cases framed

end Shell

end SqlToMongo.Mongo
