import Mathlib.Data.List.Forall2
import SqlToMongo.Json.Writer
import SqlToMongo.Proofs.Json.Grammar

/-!
# Written JSON

The writer stays inside the grammar: with an escape that writes every character as one of its texts,
the indented text of a value is a text of that value, as long as the numbers in it are numbers.

## Main result

`valueText_pretty`: the indented text of a value belongs to it.
-/

namespace SqlToMongo.Json

open Text

/-! ### Strings -/

theorem padded_control : ∀ n < 32, ∃ a b c d : Char, Hex.padded 4 n = [a, b, c, d] := by
  intro n small
  have four : ∀ n < 32, (Hex.padded 4 n).length = 4 := by decide +kernel
  have length := four n small
  match Hex.padded 4 n, length with
  | [a, b, c, d], _ => exact ⟨a, b, c, d, rfl⟩

theorem charText_unicodeEscape {c : Char} (control : c.toNat < 32) :
    CharText c (unicodeEscape c) := by
  obtain ⟨a, b, d, e, digits⟩ := padded_control c.toNat control
  have read : ∀ n < 32, Hex.read? (Hex.padded 4 n) = some n := by decide +kernel
  have value := read c.toNat control
  rw [digits] at value
  have notHigh : isHighSurrogate c.toNat = false := by
    simp only [isHighSurrogate, Bool.and_eq_false_iff, decide_eq_false_iff_not]
    omega
  have notLow : isLowSurrogate c.toNat = false := by
    simp only [isLowSurrogate, Bool.and_eq_false_iff, decide_eq_false_iff_not]
    omega
  have isText := CharText.unit value notHigh notLow
  rw [Char.ofNat_toNat] at isText
  rwa [unicodeEscape, digits]

/-- Every character is written as one of its texts. -/
def Faithful (escape : Escape) : Prop :=
  ∀ c, CharText c (escape c)

theorem faithful_escapeControls : Faithful escapeControls := by
  intro c
  have short {letter d : Char} (same : c = d) (listed : (letter, d) ∈ shortEscapes) :
      CharText c ['\\', letter] := by
    rw [same]
    exact .short listed
  unfold escapeControls
  split_ifs with quote backslash newline carriage tab control
  · exact short quote (by decide)
  · exact short backslash (by decide)
  · exact short newline (by decide)
  · exact short carriage (by decide)
  · exact short tab (by decide)
  · exact charText_unicodeEscape control
  · exact .plain (Nat.not_lt.mp control) quote backslash

variable {escape : Escape}

theorem stringText_escaped (faithful : Faithful escape) (s : String) :
    StringText s.toList (escaped escape s).toList := by
  rw [escaped, String.toList_ofList]
  induction s.toList with
  | nil => exact .nil
  | cons c cs ih =>
    rw [List.flatMap_cons]
    exact .cons (faithful c) ih

theorem toList_quotedString (s : String) :
    (quotedString escape s).toList = '"' :: (escaped escape s).toList ++ ['"'] := by
  simp [quotedString]

/-! ### Blocks -/

/-- The lines between two brackets: each after `inner` on a line of its own, and `outer` before the
closing bracket. -/
def blockBody (inner outer : List Char) : List (List Char) → List Char
  | [] => []
  | [line] => '\n' :: inner ++ line ++ '\n' :: outer
  | line :: next :: rest => '\n' :: inner ++ line ++ ',' :: blockBody inner outer (next :: rest)

/-- The indentation at a depth. -/
def indentation (indent : String) (depth : Nat) : List Char :=
  (String.join (List.replicate depth indent)).toList

theorem space_indentation {indent : String} (isIndent : Space indent.toList) (depth : Nat) :
    Space (indentation indent depth) := by
  intro c member
  rw [indentation, String.toList_join, List.mem_flatMap] at member
  obtain ⟨part, listed, inside⟩ := member
  rw [List.eq_of_mem_replicate listed] at inside
  exact isIndent c inside

theorem intercalate_blockBody (inner : String) (outer : List Char) (lines : List String)
    (nonempty : lines ≠ []) :
    '\n' :: (",\n".intercalate (lines.map (inner ++ ·))).toList ++ '\n' :: outer =
      blockBody inner.toList outer (lines.map String.toList) := by
  rw [String.toList_intercalate, List.map_map]
  induction lines with
  | nil => exact absurd rfl nonempty
  | cons line lines ih =>
    cases lines with
    | nil => simp [blockBody]
    | cons next rest =>
      have others := ih (by simp)
      simp only [List.map_cons, Function.comp_apply, List.cons_append] at others ⊢
      rw [List.intercalate_cons_cons, blockBody, ← others]
      simp

theorem toList_block (indent : String) (depth : Nat) (opening closing : String)
    {lines : List String} (nonempty : lines ≠ []) :
    (block indent depth opening closing lines).toList = opening.toList ++
      blockBody (indentation indent (depth + 1)) (indentation indent depth)
        (lines.map String.toList) ++ closing.toList := by
  rw [indentation, ← intercalate_blockBody _ _ lines nonempty]
  obtain ⟨line, rest, rfl⟩ := List.exists_cons_of_ne_nil nonempty
  simp [block, indentation]

theorem space_newline {space : List Char} (isSpaces : Space space) : Space ('\n' :: space) := by
  intro c member
  rcases List.mem_cons.mp member with rfl | member
  · decide
  · exact isSpaces c member

/-- Values on lines of their own are the items of an array. -/
theorem itemsText_blockBody {inner outer : List Char} (isInner : Space inner)
    (isOuter : Space outer) {items : List Json} {lines : List (List Char)}
    (texts : List.Forall₂ ValueText items lines) (nonempty : items ≠ []) :
    ItemsText items (blockBody inner outer lines) := by
  induction texts with
  | nil => exact absurd rfl nonempty
  | @cons item line items lines isValue others ih =>
    cases others with
    | nil => exact .last (space_newline isInner) isValue (space_newline isOuter)
    | cons next rest =>
      have text := ItemsText.more (space_newline isInner) isValue .nil (ih (by simp))
      rwa [List.append_nil] at text

/-- A member on a line of its own. -/
inductive MemberLine : String × Json → List Char → Prop where
  | intro {value : Json} {cs name text : List Char} :
      StringText cs name → ValueText value text →
      MemberLine (String.ofList cs, value) ('"' :: name ++ '"' :: ':' :: ' ' :: text)

theorem membersText_blockBody {inner outer : List Char} (isInner : Space inner)
    (isOuter : Space outer) {members : List (String × Json)} {lines : List (List Char)}
    (texts : List.Forall₂ MemberLine members lines) (nonempty : members ≠ []) :
    MembersText members (blockBody inner outer lines) := by
  have space : Space [' '] := by simp [Space]; decide
  induction texts with
  | nil => exact absurd rfl nonempty
  | cons isMember others ih =>
    obtain ⟨isString, isValue⟩ := isMember
    have isName := NameText.intro (space_newline isInner) isString .nil
    cases others with
    | nil => simpa [blockBody] using MembersText.last isName space isValue (space_newline isOuter)
    | cons next rest =>
      simpa [blockBody] using MembersText.more isName space isValue .nil (ih (by simp))

/-! ### Values -/

mutual

/-- All numbers in the value are numbers of the grammar. -/
def IsNumeric : Json → Prop
  | .number text => NumberText text.toList
  | .array items => AreNumeric items
  | .object members => HaveNumeric members
  | _ => True

def AreNumeric : List Json → Prop
  | [] => True
  | item :: rest => IsNumeric item ∧ AreNumeric rest

def HaveNumeric : List (String × Json) → Prop
  | [] => True
  | (_, value) :: rest => IsNumeric value ∧ HaveNumeric rest

end

mutual

/-- The indented text of a value belongs to it. -/
theorem valueText_pretty (faithful : Faithful escape) {indent : String}
    (isIndent : Space indent.toList) : ∀ (j : Json), IsNumeric j → ∀ depth,
    ValueText j (pretty escape indent depth j).toList
  | .null, _, _ => .null
  | .bool true, _, _ => .isTrue
  | .bool false, _, _ => .isFalse
  | .number text, numeric, _ => by
    have isText := ValueText.number numeric
    rwa [String.ofList_toList] at isText
  | .string s, _, _ => by
    have isText := ValueText.string (stringText_escaped faithful s)
    rwa [String.ofList_toList, ← toList_quotedString] at isText
  | .array [], _, _ => by
    simpa [pretty, prettyItems, block] using ValueText.emptyArray .nil
  | .array (item :: rest), numeric, depth => by
    have lines := valueText_prettyItems faithful isIndent (item :: rest) numeric (depth + 1)
    have isText := itemsText_blockBody (space_indentation isIndent (depth + 1))
      (space_indentation isIndent depth) lines (by simp)
    rw [pretty, toList_block _ _ _ _ (by simp [prettyItems])]
    exact .array isText
  | .object [], _, _ => by
    simpa [pretty, prettyMembers, block] using ValueText.emptyObject .nil
  | .object (member :: rest), numeric, depth => by
    have lines := memberLine_prettyMembers faithful isIndent (member :: rest) numeric (depth + 1)
    have isText := membersText_blockBody (space_indentation isIndent (depth + 1))
      (space_indentation isIndent depth) lines (by simp)
    rw [pretty, toList_block _ _ _ _ (by simp [prettyMembers])]
    exact .object isText

theorem valueText_prettyItems (faithful : Faithful escape) {indent : String}
    (isIndent : Space indent.toList) : ∀ (items : List Json), AreNumeric items → ∀ depth,
    List.Forall₂ ValueText items ((prettyItems escape indent depth items).map String.toList)
  | [], _, _ => .nil
  | item :: rest, numeric, depth =>
    .cons (valueText_pretty faithful isIndent item numeric.1 depth)
      (valueText_prettyItems faithful isIndent rest numeric.2 depth)

theorem memberLine_prettyMembers (faithful : Faithful escape) {indent : String}
    (isIndent : Space indent.toList) : ∀ (members : List (String × Json)), HaveNumeric members →
    ∀ depth, List.Forall₂ MemberLine members
      ((prettyMembers escape indent depth members).map String.toList)
  | [], _, _ => .nil
  | (name, value) :: rest, numeric, depth => by
    refine .cons ?_ (memberLine_prettyMembers faithful isIndent rest numeric.2 depth)
    have line := MemberLine.intro (stringText_escaped faithful name)
      (valueText_pretty faithful isIndent value numeric.1 depth)
    rw [String.ofList_toList] at line
    simpa [toList_quotedString] using line

end

end SqlToMongo.Json
