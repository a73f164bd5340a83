import SqlToMongo.Json.Reader
import SqlToMongo.Text.Split

/-!
# The grammar of JSON

RFC 8259 as relations between values and texts: which texts a string, a number and a value have,
with any space where the grammar allows some. An escaped surrogate without its partner stands for no
character, so no text with one belongs to a value. Numbers are the texts they are written with.

The reader finds the value of every text of the grammar. So a text belongs to at most one value.

## Main results

`value?_of_text`: the reader reads every text of a value, whatever follows it.
`ValueText.unique_append`: no text of a value goes on into the text of another one.
`Denotes.unique`: a text belongs to one value.
-/

namespace SqlToMongo.Json

open Text

/-! ### Texts -/

/-- Space between the parts of a text, possibly none. -/
def Space (s : List Char) : Prop :=
  ∀ c ∈ s, isSpace c = true

/-- The escapes of two characters, with what they stand for. -/
def shortEscapes : List (Char × Char) :=
  [('"', '"'), ('\\', '\\'), ('/', '/'), ('b', '\x08'), ('f', '\x0c'), ('n', '\n'), ('r', '\r'),
   ('t', '\t')]

/-- The number of the character that two surrogates stand for. -/
def pairValue (high low : Nat) : Nat :=
  0x10000 + (high - 0xD800) * 0x400 + (low - 0xDC00)

/-- The texts of a character inside a string. -/
inductive CharText : Char → List Char → Prop where
  | plain {c : Char} : 0x20 ≤ c.toNat → c ≠ '"' → c ≠ '\\' → CharText c [c]
  | short {letter c : Char} : (letter, c) ∈ shortEscapes → CharText c ['\\', letter]
  | unit {a b c d : Char} {n : Nat} : Hex.read? [a, b, c, d] = some n →
      isHighSurrogate n = false → isLowSurrogate n = false →
      CharText (Char.ofNat n) ['\\', 'u', a, b, c, d]
  | pair {a b c d a' b' c' d' : Char} {high low : Nat} :
      Hex.read? [a, b, c, d] = some high → isHighSurrogate high = true →
      Hex.read? [a', b', c', d'] = some low → isLowSurrogate low = true →
      CharText (Char.ofNat (pairValue high low))
        ['\\', 'u', a, b, c, d, '\\', 'u', a', b', c', d']

/-- The texts between the quotes of a string. -/
inductive StringText : List Char → List Char → Prop where
  | nil : StringText [] []
  | cons {c : Char} {cs text rest : List Char} :
      CharText c text → StringText cs rest → StringText (c :: cs) (text ++ rest)

/-- Digits, at least one. -/
def Digits (s : List Char) : Prop :=
  s ≠ [] ∧ ∀ c ∈ s, c.isDigit = true

/-- The digits before the point: a zero stands alone. -/
inductive WholeText : List Char → Prop where
  | zero : WholeText ['0']
  | digits {s : List Char} : Digits s → s.head? ≠ some '0' → WholeText s

inductive FractionText : List Char → Prop where
  | none : FractionText []
  | some {s : List Char} : Digits s → FractionText ('.' :: s)

inductive ExponentText : List Char → Prop where
  | none : ExponentText []
  | some {mark : Char} {sign s : List Char} : mark = 'e' ∨ mark = 'E' →
      sign ∈ [[], ['+'], ['-']] → Digits s → ExponentText (mark :: sign ++ s)

inductive NumberText : List Char → Prop where
  | intro {sign whole fraction exponent : List Char} : sign ∈ [[], ['-']] → WholeText whole →
      FractionText fraction → ExponentText exponent →
      NumberText (sign ++ whole ++ fraction ++ exponent)

/-- The texts of a name in an object, with the space around it. -/
inductive NameText : String → List Char → Prop where
  | intro {cs text before after : List Char} : Space before → StringText cs text → Space after →
      NameText (String.ofList cs) (before ++ '"' :: text ++ '"' :: after)

mutual

/-- The texts of a value, without space around it. -/
inductive ValueText : Json → List Char → Prop where
  | null : ValueText .null "null".toList
  | isTrue : ValueText (.bool true) "true".toList
  | isFalse : ValueText (.bool false) "false".toList
  | number {s : List Char} : NumberText s → ValueText (.number (String.ofList s)) s
  | string {cs text : List Char} :
      StringText cs text → ValueText (.string (String.ofList cs)) ('"' :: text ++ ['"'])
  | emptyArray {s : List Char} : Space s → ValueText (.array []) ('[' :: s ++ [']'])
  | array {items : List Json} {s : List Char} :
      ItemsText items s → ValueText (.array items) ('[' :: s ++ [']'])
  | emptyObject {s : List Char} : Space s → ValueText (.object []) ('\x7b' :: s ++ ['\x7d'])
  | object {members : List (String × Json)} {s : List Char} :
      MembersText members s → ValueText (.object members) ('\x7b' :: s ++ ['\x7d'])

/-- The texts of the items of an array; there is at least one. -/
inductive ItemsText : List Json → List Char → Prop where
  | last {item : Json} {before text after : List Char} :
      Space before → ValueText item text → Space after → ItemsText [item] (before ++ text ++ after)
  | more {item : Json} {items : List Json} {before text after rest : List Char} :
      Space before → ValueText item text → Space after → ItemsText items rest →
      ItemsText (item :: items) (before ++ text ++ after ++ ',' :: rest)

/-- The texts of the members of an object; there is at least one. -/
inductive MembersText : List (String × Json) → List Char → Prop where
  | last {key : String} {value : Json} {name before text after : List Char} :
      NameText key name → Space before → ValueText value text → Space after →
      MembersText [(key, value)] (name ++ ':' :: before ++ text ++ after)
  | more {key : String} {value : Json} {members : List (String × Json)}
      {name before text after rest : List Char} :
      NameText key name → Space before → ValueText value text → Space after →
      MembersText members rest →
      MembersText ((key, value) :: members) (name ++ ':' :: before ++ text ++ after ++ ',' :: rest)

end

/-- The texts of a value, with any space around it. -/
inductive Denotes : Json → List Char → Prop where
  | intro {j : Json} {before text after : List Char} :
      Space before → ValueText j text → Space after → Denotes j (before ++ text ++ after)

/-! ### Reading space and strings -/

theorem Space.nil : Space [] := by
  simp [Space]

theorem skipSpace_append {space rest : List Char} (isSpaces : Space space)
    (stop : ∀ c ∈ rest.head?, isSpace c = false) : skipSpace (space ++ rest) = rest :=
  (takeWhile_run isSpace space rest isSpaces stop).2

theorem skipSpace_cons {c : Char} (visible : isSpace c = false) (s : List Char) :
    skipSpace (c :: s) = c :: s := by
  simp [skipSpace, visible]

/-- The reader of escapes finds the character of each. -/
theorem escape?_of_charText {c : Char} {text : List Char} (isText : CharText c ('\\' :: text))
    (rest : List Char) : escape? (text ++ rest) = some (c, rest) := by
  cases isText with
  | plain _ _ different => exact absurd rfl different
  | short listed =>
    simp only [shortEscapes, List.mem_cons, Prod.mk.injEq, List.not_mem_nil, or_false] at listed
    rcases listed with ⟨rfl, rfl⟩ | ⟨rfl, rfl⟩ | ⟨rfl, rfl⟩ | ⟨rfl, rfl⟩ | ⟨rfl, rfl⟩ | ⟨rfl, rfl⟩ |
      ⟨rfl, rfl⟩ | ⟨rfl, rfl⟩ <;> rfl
  | unit read notHigh notLow => simp [escape?, codeUnit?, read, notHigh, notLow]
  | @pair a b c d a' b' c' d' high low readHigh isHigh readLow isLow =>
    have highRead : codeUnit? (a :: b :: c :: d :: '\\' :: 'u' :: a' :: b' :: c' :: d' :: rest) =
        some (high, '\\' :: 'u' :: a' :: b' :: c' :: d' :: rest) := by
      simp [codeUnit?, readHigh]
    have lowRead : lowSurrogate? ('\\' :: 'u' :: a' :: b' :: c' :: d' :: rest) =
        some (low, rest) := by
      simp [lowSurrogate?, codeUnit?, readLow, isLow]
    simp only [List.cons_append, List.nil_append, escape?, highRead, isHigh, if_true, lowRead]
    rfl

theorem CharText.cases_head {c : Char} {text : List Char} (isText : CharText c text) :
    (text = [c] ∧ 0x20 ≤ c.toNat ∧ c ≠ '"' ∧ c ≠ '\\') ∨ ∃ tail, text = '\\' :: tail := by
  cases isText with
  | plain visible quote backslash => exact .inl ⟨rfl, visible, quote, backslash⟩
  | short | unit | pair => exact .inr ⟨_, rfl⟩

theorem StringText.length_le {cs text : List Char} (isText : StringText cs text) :
    cs.length ≤ text.length := by
  induction isText with
  | nil => simp
  | cons isChar _ ih =>
    rcases isChar.cases_head with ⟨rfl, _⟩ | ⟨tail, rfl⟩ <;>
      simp only [List.length_cons, List.length_append, List.length_nil] <;> omega

/-- A string is read up to its closing quote, whatever follows. -/
theorem stringTail_of_text {cs text : List Char} (isText : StringText cs text) (rest : List Char)
    {steps : Nat} (enough : cs.length < steps) (read : List Char) :
    stringTail steps read (text ++ '"' :: rest) =
      some (String.ofList (read.reverse ++ cs), rest) := by
  induction isText generalizing steps read with
  | nil =>
    obtain ⟨steps, rfl⟩ := Nat.exists_eq_succ_of_ne_zero (Nat.ne_zero_of_lt enough)
    simp [stringTail]
  | @cons c cs text tail isChar _ ih =>
    obtain ⟨steps, rfl⟩ := Nat.exists_eq_succ_of_ne_zero (Nat.ne_zero_of_lt enough)
    have inner := ih (Nat.lt_of_succ_lt_succ enough) (c :: read)
    -- A character stands for itself or behind a backslash, so none of it is the closing quote.
    rcases isChar.cases_head with ⟨rfl, visible, quote, backslash⟩ | ⟨body, rfl⟩
    · have control : ¬c.toNat < 0x20 := Nat.not_lt.mpr visible
      simp [stringTail, quote, backslash, control, inner]
    · have escape := escape?_of_charText isChar (tail ++ '"' :: rest)
      simp [stringTail, escape, inner]

/-- The string reader of a value, behind the opening quote. -/
theorem stringTail_whole {cs text : List Char} (isText : StringText cs text) (rest : List Char) :
    stringTail ((text ++ '"' :: rest).length + 1) [] (text ++ '"' :: rest) =
      some (String.ofList cs, rest) := by
  have enough : cs.length < (text ++ '"' :: rest).length + 1 := by
    have shorter := isText.length_le
    simp only [List.length_append]
    omega
  have read := stringTail_of_text isText rest enough []
  rwa [List.reverse_nil, List.nil_append] at read

/-! ### Reading numbers -/

/-- What may stand behind a value: space, a comma or a closing bracket, also that of a call. -/
def isFollower (c : Char) : Bool :=
  isSpace c || c == ',' || c == ']' || c == '\x7d' || c == ')'

/-- The text ends, or goes on with what may stand behind a value. -/
def Follows (rest : List Char) : Prop :=
  ∀ c ∈ rest.head?, isFollower c = true

theorem isFollower_cases {c : Char} (follower : isFollower c = true) :
    c ∈ [' ', '\t', '\n', '\r', ',', ']', '\x7d', ')'] := by
  simpa [isFollower, isSpace, or_assoc] using follower

/-- Nothing of a number stands behind a value. -/
theorem Follows.stops {rest : List Char} (follows : Follows rest) :
    ∀ c ∈ rest.head?, c.isDigit = false ∧ c ≠ '.' ∧ c ≠ 'e' ∧ c ≠ 'E' := by
  intro c first
  have none : ∀ d ∈ [' ', '\t', '\n', '\r', ',', ']', '\x7d', ')'],
      d.isDigit = false ∧ d ≠ '.' ∧ d ≠ 'e' ∧ d ≠ 'E' := by decide
  exact none c (isFollower_cases (follows c first))

theorem digits?_append {s rest : List Char} (digits : Digits s)
    (stop : ∀ c ∈ rest.head?, c.isDigit = false) : digits? (s ++ rest) = some (s, rest) := by
  obtain ⟨taken, dropped⟩ := takeWhile_run Char.isDigit s rest digits.2 stop
  rw [digits?, taken, dropped]
  split
  next => exact absurd rfl digits.1
  next => rfl

theorem WholeText.exists_cons {s : List Char} (isWhole : WholeText s) :
    ∃ d tail, s = d :: tail ∧ d.isDigit = true := by
  cases isWhole with
  | zero => exact ⟨'0', [], rfl, by decide⟩
  | digits digits =>
    obtain ⟨d, tail, rfl⟩ := List.exists_cons_of_ne_nil digits.1
    exact ⟨d, tail, rfl, digits.2 d (by simp)⟩

theorem whole?_append {s rest : List Char} (isWhole : WholeText s)
    (stop : ∀ c ∈ rest.head?, c.isDigit = false) : whole? (s ++ rest) = some (s, rest) := by
  cases isWhole with
  | zero => rfl
  | digits digits notZero =>
    have read := digits?_append digits stop
    unfold whole?
    split
    next tail whole =>
      obtain ⟨c, s', rfl⟩ := List.exists_cons_of_ne_nil digits.1
      obtain ⟨rfl, _⟩ := List.cons.inj whole
      exact absurd rfl notZero
    next => exact read

theorem fraction?_append {s rest : List Char} (isFraction : FractionText s)
    (stop : ∀ c ∈ rest.head?, c.isDigit = false ∧ c ≠ '.') :
    fraction? (s ++ rest) = some (s, rest) := by
  cases isFraction with
  | none =>
    cases rest with
    | nil => rfl
    | cons c rest =>
      rw [List.nil_append]
      unfold fraction?
      split
      next whole =>
        obtain ⟨rfl, _⟩ := List.cons.inj whole
        exact absurd rfl (stop '.' rfl).2
      next => rfl
  | some digits =>
    have read := digits?_append digits fun c first => (stop c first).1
    simp [fraction?, read]

theorem exponent?_append {s rest : List Char} (isExponent : ExponentText s)
    (stop : ∀ c ∈ rest.head?, c.isDigit = false ∧ c ≠ 'e' ∧ c ≠ 'E') :
    exponent? (s ++ rest) = some (s, rest) := by
  cases isExponent with
  | none =>
    cases rest with
    | nil => rfl
    | cons c rest =>
      obtain ⟨_, small, large⟩ := stop c (by simp)
      simp [exponent?, small, large]
  | @some mark sign s isMark isSign digits =>
    have read := digits?_append digits fun c first => (stop c first).1
    obtain ⟨d, s', rfl⟩ := List.exists_cons_of_ne_nil digits.1
    have digit : d.isDigit = true := digits.2 d (by simp)
    simp only [List.mem_cons, List.not_mem_nil, or_false] at isSign
    rcases isSign with rfl | rfl | rfl
    · have plus : d ≠ '+' := by rintro rfl; exact absurd digit (by decide)
      have minus : d ≠ '-' := by rintro rfl; exact absurd digit (by decide)
      rw [List.cons_append] at read
      simp [exponent?, isMark, plus, minus, read]
    · rw [List.cons_append] at read
      simp [exponent?, isMark, read]
    · rw [List.cons_append] at read
      simp [exponent?, isMark, read]

theorem number?_append {s rest : List Char} (isNumber : NumberText s) (follows : Follows rest) :
    number? (s ++ rest) = some (String.ofList s, rest) := by
  obtain @⟨sign, whole, fraction, exponent, isSign, isWhole, isFraction, isExponent⟩ := isNumber
  have stops := follows.stops
  have exponentRead : exponent? (exponent ++ rest) = some (exponent, rest) :=
    exponent?_append isExponent fun c first => ⟨(stops c first).1, (stops c first).2.2⟩
  -- Each part stops where the next one, or what follows the number, begins.
  have afterFraction : ∀ c ∈ (exponent ++ rest).head?, c.isDigit = false ∧ c ≠ '.' := by
    cases isExponent with
    | none => exact fun c first => ⟨(stops c first).1, (stops c first).2.1⟩
    | some isMark =>
      intro c first
      obtain rfl := Option.some.inj first
      rcases isMark with rfl | rfl <;> decide
  have fractionRead := fraction?_append isFraction afterFraction
  have afterWhole : ∀ c ∈ (fraction ++ (exponent ++ rest)).head?, c.isDigit = false := by
    cases isFraction with
    | none => exact fun c first => (afterFraction c first).1
    | some => simp
  have wholeRead := whole?_append isWhole afterWhole
  simp only [List.mem_cons, List.not_mem_nil, or_false] at isSign
  rcases isSign with rfl | rfl
  · obtain ⟨d, tail, rfl, digit⟩ := isWhole.exists_cons
    have minus : d ≠ '-' := by
      rintro rfl
      exact absurd digit (by decide)
    rw [List.cons_append] at wholeRead
    simp [number?, minus, wholeRead, fractionRead, exponentRead, String.append_assoc]
  · simp [number?, wholeRead, fractionRead, exponentRead]

/-! ### Reading values -/

mutual

/-- How many brackets a value is nested in itself. -/
def nesting : Json → Nat
  | .array items => nestingItems items + 1
  | .object members => nestingMembers members + 1
  | _ => 0

def nestingItems : List Json → Nat
  | [] => 0
  | item :: rest => max (nesting item) (nestingItems rest)

def nestingMembers : List (String × Json) → Nat
  | [] => 0
  | (_, value) :: rest => max (nesting value) (nestingMembers rest)

end

theorem NumberText.exists_cons {s : List Char} (isNumber : NumberText s) :
    ∃ c tail, s = c :: tail ∧ (c = '-' ∨ c.isDigit = true) := by
  obtain @⟨sign, whole, fraction, exponent, isSign, isWhole, _, _⟩ := isNumber
  obtain ⟨d, tail, rfl, digit⟩ := isWhole.exists_cons
  simp only [List.mem_cons, List.not_mem_nil, or_false] at isSign
  rcases isSign with rfl | rfl
  · exact ⟨d, _, rfl, .inr digit⟩
  · exact ⟨'-', _, rfl, .inl rfl⟩

theorem isSpace_of_numberStart {c : Char} (start : c = '-' ∨ c.isDigit = true) :
    isSpace c = false := by
  rw [Bool.eq_false_iff]
  intro space
  simp only [isSpace, Bool.or_eq_true, beq_iff_eq] at space
  rcases space with ((rfl | rfl) | rfl) | rfl <;> exact absurd start (by decide)

/-- A value starts with a character that is no space and closes nothing. -/
theorem ValueText.exists_cons {j : Json} {s : List Char} (isValue : ValueText j s) :
    ∃ c tail, s = c :: tail ∧ isSpace c = false ∧ c ≠ ']' := by
  cases isValue with
  | null | isTrue | isFalse | string | emptyArray | array | emptyObject | object =>
    exact ⟨_, _, rfl, by decide, by decide⟩
  | number isNumber =>
    obtain ⟨c, tail, rfl, start⟩ := isNumber.exists_cons
    refine ⟨c, tail, rfl, isSpace_of_numberStart start, ?_⟩
    rintro rfl
    exact absurd start (by decide)

theorem value?_number {c : Char} (start : c = '-' ∨ c.isDigit = true) (limit steps depth : Nat)
    (s : List Char) :
    value? limit (steps + 1) depth (c :: s) =
      (number? (c :: s)).map fun (t, rest) => (.number t, rest) := by
  -- None of the other characters that a value starts with begins a number.
  have other {d : Char} {tail : List Char} (same : c :: s = d :: tail)
      (unlike : ¬(d = '-' ∨ d.isDigit = true)) : False := by
    obtain ⟨rfl, _⟩ := List.cons.inj same
    exact unlike start
  unfold value?
  rw [skipSpace_cons (isSpace_of_numberStart start)]
  split
  next same => exact (other same (by decide)).elim
  next same => exact (other same (by decide)).elim
  next same => exact (other same (by decide)).elim
  next same => exact (other same (by decide)).elim
  next same => exact (other same (by decide)).elim
  next same => exact (other same (by decide)).elim
  next => rfl

theorem skipSpace_skipSpace (s : List Char) : skipSpace (skipSpace s) = skipSpace s := by
  have stop : ∀ c ∈ (skipSpace s).head?, isSpace c = false := by
    intro c first
    have stops := List.head?_dropWhile_not isSpace s
    rw [← skipSpace, Option.mem_def.mp first] at stops
    exact stops
  exact skipSpace_append .nil stop

theorem value?_skipSpace (limit steps depth : Nat) (s : List Char) :
    value? limit steps depth (skipSpace s) = value? limit steps depth s := by
  cases steps with
  | zero => rfl
  | succ steps => rw [value?, value?, skipSpace_skipSpace]

/-- Space before a value is passed over. -/
theorem value?_space {space : List Char} (isSpaces : Space space) {s : List Char}
    (start : ∀ c ∈ s.head?, isSpace c = false) (limit steps depth : Nat) :
    value? limit steps depth (space ++ s) = value? limit steps depth s := by
  rw [← value?_skipSpace, skipSpace_append isSpaces start]

theorem Follows.append {space rest : List Char} (isSpaces : Space space)
    (follows : Follows rest) : Follows (space ++ rest) := by
  intro c first
  cases space with
  | nil => exact follows c first
  | cons d space =>
    obtain rfl : d = c := by simpa using first
    simp [isFollower, isSpaces d (by simp)]

/-- What the reader of items does behind an item. -/
def behindItem? (limit steps depth : Nat) (item : Json) :
    List Char → Option (List Json × List Char)
  | ']' :: rest => some ([item], rest)
  | ',' :: rest => (items? limit steps depth rest).map fun (items, rest) => (item :: items, rest)
  | _ => none

/-- What the reader of members does behind a member. -/
def behindMember? (limit steps depth : Nat) (member : String × Json) :
    List Char → Option (List (String × Json) × List Char)
  | '\x7d' :: rest => some ([member], rest)
  | ',' :: rest => (members? limit steps depth rest).map fun (ms, rest) => (member :: ms, rest)
  | _ => none

section

variable {limit steps depth : Nat} {j : Json} {before text after rest : List Char}

theorem items?_item (isBefore : Space before) (isValue : ValueText j text) (isAfter : Space after)
    (read : value? limit steps depth (text ++ (after ++ rest)) = some (j, after ++ rest))
    (stop : ∀ c ∈ rest.head?, isSpace c = false) :
    items? limit (steps + 1) depth (before ++ text ++ after ++ rest) =
      behindItem? limit steps depth j rest := by
  obtain ⟨c, tail, shape, visible, _⟩ := isValue.exists_cons
  have start : ∀ d ∈ (text ++ (after ++ rest)).head?, isSpace d = false := by
    simpa [shape] using visible
  have whole : before ++ text ++ after ++ rest = before ++ (text ++ (after ++ rest)) := by simp
  rw [whole, items?, value?_space isBefore start, read]
  dsimp only
  rw [skipSpace_append isAfter stop]
  rfl

theorem members?_member {key : String} {name : List Char} (isName : NameText key name)
    (isBefore : Space before) (isValue : ValueText j text) (isAfter : Space after)
    (read : value? limit steps depth (text ++ (after ++ rest)) = some (j, after ++ rest))
    (stop : ∀ c ∈ rest.head?, isSpace c = false) :
    members? limit (steps + 1) depth (name ++ ':' :: before ++ text ++ after ++ rest) =
      behindMember? limit steps depth (key, j) rest := by
  obtain @⟨cs, inner, front, back, isFront, isString, isBack⟩ := isName
  obtain ⟨c, tail, shape, visible, _⟩ := isValue.exists_cons
  have start : ∀ d ∈ (text ++ (after ++ rest)).head?, isSpace d = false := by
    simpa [shape] using visible
  have whole : front ++ '"' :: inner ++ '"' :: back ++ ':' :: before ++ text ++ after ++ rest =
      front ++ '"' :: (inner ++ '"' :: (back ++ ':' :: (before ++ (text ++ (after ++ rest))))) := by
    simp
  have quoted : skipSpace (front ++
      '"' :: (inner ++ '"' :: (back ++ ':' :: (before ++ (text ++ (after ++ rest)))))) =
      '"' :: (inner ++ '"' :: (back ++ ':' :: (before ++ (text ++ (after ++ rest))))) :=
    skipSpace_append isFront (by simp; decide)
  have string := stringTail_whole isString (back ++ ':' :: (before ++ (text ++ (after ++ rest))))
  have colon : skipSpace (back ++ ':' :: (before ++ (text ++ (after ++ rest)))) =
      ':' :: (before ++ (text ++ (after ++ rest))) :=
    skipSpace_append isBack (by simp; decide)
  have value := value?_space isBefore start limit steps depth
  have behind := skipSpace_append isAfter stop
  rw [whole]
  simp only [members?, quoted, string, colon, value, read, behind]
  rfl

end

theorem items?_skipSpace (limit steps depth : Nat) (s : List Char) :
    items? limit steps depth (skipSpace s) = items? limit steps depth s := by
  cases steps with
  | zero => rfl
  | succ steps => rw [items?, items?, value?_skipSpace]

theorem members?_skipSpace (limit steps depth : Nat) (s : List Char) :
    members? limit steps depth (skipSpace s) = members? limit steps depth s := by
  cases steps with
  | zero => rfl
  | succ steps => rw [members?, members?, skipSpace_skipSpace]

theorem value?_array {limit depth : Nat} (shallow : depth < limit) (steps : Nat) {s : List Char}
    (filled : (skipSpace s).head? ≠ some ']') :
    value? limit (steps + 1) depth ('[' :: s) =
      (items? limit steps (depth + 1) s).map fun (items, rest) => (.array items, rest) := by
  have deep : ¬limit ≤ depth := Nat.not_le.mpr shallow
  rw [value?, skipSpace_cons (by decide)]
  simp only [deep, if_false]
  split
  next tail same => simp [same] at filled
  next => rw [items?_skipSpace]

theorem value?_object {limit depth : Nat} (shallow : depth < limit) (steps : Nat) {s : List Char}
    (filled : (skipSpace s).head? ≠ some '\x7d') :
    value? limit (steps + 1) depth ('\x7b' :: s) =
      (members? limit steps (depth + 1) s).map fun (ms, rest) => (.object ms, rest) := by
  have deep : ¬limit ≤ depth := Nat.not_le.mpr shallow
  rw [value?, skipSpace_cons (by decide)]
  simp only [deep, if_false]
  split
  next tail same => simp [same] at filled
  next => rw [members?_skipSpace]

/-- Behind space, items start with a value and not with a bracket. -/
theorem ItemsText.head?_skipSpace {items : List Json} {s : List Char}
    (isItems : ItemsText items s) (rest : List Char) :
    (skipSpace (s ++ rest)).head? ≠ some ']' := by
  cases isItems with
  | last isBefore isValue isAfter | more isBefore isValue isAfter _ =>
    obtain ⟨c, tail, rfl, visible, notClosing⟩ := isValue.exists_cons
    simp only [List.append_assoc, List.cons_append]
    rw [skipSpace_append isBefore (by simpa using visible)]
    simpa using notClosing

/-- Behind space, members start with a quote. -/
theorem MembersText.head?_skipSpace {members : List (String × Json)} {s : List Char}
    (isMembers : MembersText members s) (rest : List Char) :
    (skipSpace (s ++ rest)).head? ≠ some '\x7d' := by
  cases isMembers with
  | last isName | more isName =>
    cases isName with
    | intro isBefore =>
      simp only [List.append_assoc, List.cons_append]
      rw [skipSpace_append isBefore (by simp; decide)]
      simp

theorem word?_append (word : String) (rest : List Char) :
    word? word (word.toList ++ rest) = some rest := by
  simp [word?, ← String.length_toList]

theorem Follows.of_mem {c : Char} (listed : isFollower c = true) (rest : List Char) :
    Follows (c :: rest) := by
  simpa [Follows] using listed

mutual

/-- The reader finds a value behind every text of it. Two steps are enough for a character. -/
theorem value?_of_text : ∀ {j : Json} {s : List Char}, ValueText j s →
    ∀ {limit steps depth : Nat} {rest : List Char}, 2 * s.length ≤ steps →
      depth + nesting j ≤ limit → Follows rest →
      value? limit steps depth (s ++ rest) = some (j, rest)
  | _, _, .null, limit, steps + 1, depth, rest, _, _, _ => by
    have read : word? "ull" ('u' :: 'l' :: 'l' :: rest) = some rest := word?_append "ull" rest
    simp [value?, skipSpace, isSpace, read]
  | _, _, .isTrue, limit, steps + 1, depth, rest, _, _, _ => by
    have read : word? "rue" ('r' :: 'u' :: 'e' :: rest) = some rest := word?_append "rue" rest
    simp [value?, skipSpace, isSpace, read]
  | _, _, .isFalse, limit, steps + 1, depth, rest, _, _, _ => by
    have read : word? "alse" ('a' :: 'l' :: 's' :: 'e' :: rest) = some rest :=
      word?_append "alse" rest
    simp [value?, skipSpace, isSpace, read]
  | _, s, .number isNumber, limit, steps + 1, depth, rest, _, _, follows => by
    have read := number?_append isNumber follows
    obtain ⟨c, tail, rfl, start⟩ := isNumber.exists_cons
    rw [List.cons_append] at read ⊢
    rw [value?_number start, read, Option.map_some]
  | _, _, @ValueText.string cs text isString, limit, steps + 1, depth, rest, _, _, _ => by
    have read := stringTail_whole isString rest
    simp only [List.cons_append, List.append_assoc, List.nil_append]
    rw [value?, skipSpace_cons (by decide)]
    simp only [read, Option.map_some]
  | _, _, @ValueText.emptyArray s isSpaces, limit, steps + 1, depth, rest, _, shallow, _ => by
    have deep : ¬limit ≤ depth := by
      simp only [nesting] at shallow
      omega
    simp only [List.cons_append, List.append_assoc, List.nil_append]
    rw [value?, skipSpace_cons (by decide)]
    simp only [deep, if_false]
    rw [skipSpace_append isSpaces (by simp; decide)]
    rfl
  | _, _, @ValueText.array items s isItems, limit, steps + 1, depth, rest, enough, shallow, _ => by
    simp only [nesting] at shallow
    simp only [List.length_cons, List.length_append] at enough
    have read : items? limit steps (depth + 1) (s ++ ']' :: rest) = some (items, rest) :=
      items?_of_text isItems (by omega) (by omega)
    simp only [List.cons_append, List.append_assoc, List.nil_append]
    rw [value?_array (by omega) steps (isItems.head?_skipSpace _), read, Option.map_some]
  | _, _, @ValueText.emptyObject s isSpaces, limit, steps + 1, depth, rest, _, shallow, _ => by
    have deep : ¬limit ≤ depth := by
      simp only [nesting] at shallow
      omega
    simp only [List.cons_append, List.append_assoc, List.nil_append]
    rw [value?, skipSpace_cons (by decide)]
    simp only [deep, if_false]
    rw [skipSpace_append isSpaces (by simp; decide)]
    rfl
  | _, _, @ValueText.object members s isMembers, limit, steps + 1, depth, rest, enough, shallow,
      _ => by
    simp only [nesting] at shallow
    simp only [List.length_cons, List.length_append] at enough
    have read : members? limit steps (depth + 1) (s ++ '\x7d' :: rest) = some (members, rest) :=
      members?_of_text isMembers (by omega) (by omega)
    simp only [List.cons_append, List.append_assoc, List.nil_append]
    rw [value?_object (by omega) steps (isMembers.head?_skipSpace _), read, Option.map_some]
  -- Every text has a character, so the steps do not run out here.
  | _, _, isValue, _, 0, _, _, enough, _, _ => by
    obtain ⟨c, tail, rfl, _⟩ := isValue.exists_cons
    simp at enough

theorem items?_of_text : ∀ {items : List Json} {s : List Char}, ItemsText items s →
    ∀ {limit steps depth : Nat} {rest : List Char}, 2 * s.length + 1 ≤ steps →
      depth + nestingItems items ≤ limit →
      items? limit steps depth (s ++ ']' :: rest) = some (items, rest)
  | _, _, @ItemsText.last item before text after isBefore isValue isAfter, limit, steps + 1, depth,
      rest, enough, shallow => by
    simp only [nestingItems] at shallow
    simp only [List.length_append] at enough
    have read : value? limit steps depth (text ++ (after ++ ']' :: rest)) =
        some (item, after ++ ']' :: rest) :=
      value?_of_text isValue (by omega) (by omega) (.append isAfter (.of_mem (by decide) rest))
    rw [items?_item isBefore isValue isAfter read (by simp; decide)]
    rfl
  | _, _, @ItemsText.more item items before text after tail isBefore isValue isAfter isItems, limit,
      steps + 1, depth, rest, enough, shallow => by
    simp only [nestingItems] at shallow
    simp only [List.length_append, List.length_cons] at enough
    have read : value? limit steps depth (text ++ (after ++ ',' :: (tail ++ ']' :: rest))) =
        some (item, after ++ ',' :: (tail ++ ']' :: rest)) :=
      value?_of_text isValue (by omega) (by omega) (.append isAfter (.of_mem (by decide) _))
    have others : items? limit steps depth (tail ++ ']' :: rest) = some (items, rest) :=
      items?_of_text isItems (by omega) (by omega)
    rw [List.append_assoc, List.cons_append,
      items?_item isBefore isValue isAfter read (by simp; decide), behindItem?, others]
    rfl

theorem members?_of_text : ∀ {members : List (String × Json)} {s : List Char},
    MembersText members s →
    ∀ {limit steps depth : Nat} {rest : List Char}, 2 * s.length + 1 ≤ steps →
      depth + nestingMembers members ≤ limit →
      members? limit steps depth (s ++ '\x7d' :: rest) = some (members, rest)
  | _, _, @MembersText.last key value name before text after isName isBefore isValue isAfter, limit,
      steps + 1, depth, rest, enough, shallow => by
    simp only [nestingMembers] at shallow
    simp only [List.length_append, List.length_cons] at enough
    have read : value? limit steps depth (text ++ (after ++ '\x7d' :: rest)) =
        some (value, after ++ '\x7d' :: rest) :=
      value?_of_text isValue (by omega) (by omega) (.append isAfter (.of_mem (by decide) rest))
    rw [members?_member isName isBefore isValue isAfter read (by simp; decide)]
    rfl
  | _, _, @MembersText.more key value members name before text after tail isName isBefore isValue
      isAfter isMembers, limit, steps + 1, depth, rest, enough, shallow => by
    simp only [nestingMembers] at shallow
    simp only [List.length_append, List.length_cons] at enough
    have read : value? limit steps depth (text ++ (after ++ ',' :: (tail ++ '\x7d' :: rest))) =
        some (value, after ++ ',' :: (tail ++ '\x7d' :: rest)) :=
      value?_of_text isValue (by omega) (by omega) (.append isAfter (.of_mem (by decide) _))
    have others : members? limit steps depth (tail ++ '\x7d' :: rest) = some (members, rest) :=
      members?_of_text isMembers (by omega) (by omega)
    rw [List.append_assoc, List.cons_append,
      members?_member isName isBefore isValue isAfter read (by simp; decide), behindMember?, others]
    rfl

end

/-- No text of a value goes on into the text of another one. -/
theorem ValueText.unique_append {j k : Json} {s t rest rest' : List Char} (first : ValueText j s)
    (second : ValueText k t) (follows : Follows rest) (follows' : Follows rest')
    (same : s ++ rest = t ++ rest') : j = k ∧ rest = rest' := by
  -- The reader with room for both values finds each of them.
  let limit := max (nesting j) (nesting k)
  let steps := max (2 * s.length) (2 * t.length)
  have readFirst : value? limit steps 0 (s ++ rest) = some (j, rest) :=
    value?_of_text first (by omega) (by omega) follows
  have readSecond : value? limit steps 0 (t ++ rest') = some (k, rest') :=
    value?_of_text second (by omega) (by omega) follows'
  rw [same, readSecond] at readFirst
  simpa [eq_comm] using readFirst

/-! ### Whole texts -/

theorem Space.follows {space : List Char} (isSpaces : Space space) : Follows space := by
  intro c first
  simp [isFollower, isSpaces c (List.mem_of_head? first)]

/-- A text is read as the value that it denotes. -/
theorem readWithin?_of_denotes {j : Json} {text : String} (denotes : Denotes j text.toList)
    {limit : Nat} (shallow : nesting j ≤ limit) : readWithin? limit text = some j := by
  generalize same : text.toList = s at denotes
  obtain @⟨before, inner, after, isBefore, isValue, isAfter⟩ := denotes
  obtain ⟨c, tail, shape, visible, _⟩ := isValue.exists_cons
  have start : ∀ d ∈ (inner ++ after).head?, isSpace d = false := by simpa [shape] using visible
  have read : value? limit (2 * text.toList.length + 2) 0 (inner ++ after) = some (j, after) := by
    apply value?_of_text isValue _ (by omega) isAfter.follows
    simp only [same, List.length_append]
    omega
  have nothing : skipSpace after = [] := by
    have stop : skipSpace (after ++ []) = [] := skipSpace_append isAfter (by simp)
    rwa [List.append_nil] at stop
  have first : readFirstWithin? limit text.toList = some (j, after) := by
    rw [readFirstWithin?, ← read, same, List.append_assoc, value?_space isBefore start]
  simp [readWithin?, first, nothing]

/-- A text denotes at most one value. -/
theorem Denotes.unique {j k : Json} {s : List Char} (first : Denotes j s) (second : Denotes k s) :
    j = k := by
  have same : (String.ofList s).toList = s := String.toList_ofList
  rw [← same] at first second
  -- The reader with room for both values finds each of them.
  have readFirst := readWithin?_of_denotes first (Nat.le_max_left (nesting j) (nesting k))
  have readSecond := readWithin?_of_denotes second (Nat.le_max_right (nesting j) (nesting k))
  exact Option.some.inj (readFirst.symm.trans readSecond)

end SqlToMongo.Json
