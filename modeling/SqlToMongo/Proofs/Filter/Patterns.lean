import Mathlib
import SqlToMongo.Proofs.Condition.Reading
import SqlToMongo.Statement.Select

/-!
# LIKE and its regular expression

A LIKE becomes a regular expression in which `%` is written `.*` and everything else stands as it
is, between `^` and `$`. This module reads such a text back as a regular expression and compares
what it finds with what the pattern asks for. Engines do not agree on which characters are equal up
to letter case, which are line breaks for `.`, and whether `$` also stands before a line break at
the very end, so all of that is left open.

## Main result

`like_finds_pattern`: the regular expression of every LIKE, and what it finds for patterns in which
no character but the full stop has a meaning in regular expressions.

## Where they differ

A character with such a meaning keeps it, and `%` does not go over line breaks.
-/

namespace SqlToMongo.Mongo.Regex

/-! ### Regular expressions -/

/-- What engines differ in. -/
structure Dialect where
  /-- Equal up to letter case. -/
  alike : Char → Char → Bool
  isBreak : Char → Bool
  /-- Whether `$` stands before a line break at the very end, too. -/
  endsEarly : Bool

inductive Atom where
  | any
  | char (c : Char)
  deriving DecidableEq, Repr

inductive Item where
  | start
  | finish
  | one (a : Atom)
  | many (a : Atom)
  deriving DecidableEq, Repr

/-- The characters with a meaning of their own in regular expressions. -/
def isMark (c : Char) : Bool :=
  ['\\', '^', '$', '.', '|', '?', '*', '+', '(', ')', '[', '{'].contains c

def atom? (c : Char) : Option Atom :=
  if c = '.' then some .any else if isMark c then none else some (.char c)

/-- Reads a regular expression made of anchors, characters, full stops and stars. -/
def read? : List Char → Option (List Item)
  | [] => some []
  | '^' :: rest => (read? rest).map (.start :: ·)
  | '$' :: rest => (read? rest).map (.finish :: ·)
  | c :: '*' :: rest => do
    -- A second star, or a mark that makes the star lazy or possessive, is no atom.
    let a ← atom? c
    return .many a :: (← read? rest)
  | c :: rest => do
    let a ← atom? c
    return .one a :: (← read? rest)

variable (d : Dialect)

def Atom.accepts : Atom → Char → Bool
  | any, c => !d.isBreak c
  | char e, c => d.alike e c

/-- What may be left where `$` stands. -/
def Dialect.AtEnd (rest : List Char) : Prop :=
  rest = [] ∨ d.endsEarly = true ∧ ∃ c, d.isBreak c = true ∧ rest = [c]

/-- The items match in order from the place between the two texts on. -/
def MatchesAt : List Item → List Char → List Char → Prop
  | [], _, _ => True
  | .start :: items, before, after => before = [] ∧ MatchesAt items before after
  | .finish :: items, before, after => d.AtEnd after ∧ MatchesAt items before after
  | .one a :: items, before, after =>
    ∃ c rest, after = c :: rest ∧ a.accepts d c = true ∧ MatchesAt items (before ++ [c]) rest
  | .many a :: items, before, after =>
    ∃ run rest, after = run ++ rest ∧ (∀ c ∈ run, a.accepts d c = true) ∧
      MatchesAt items (before ++ run) rest

/-- There is a match somewhere in the text. -/
def Finds (items : List Item) (subject : List Char) : Prop :=
  ∃ before after, subject = before ++ after ∧ MatchesAt d items before after

end SqlToMongo.Mongo.Regex

namespace SqlToMongo.Sql

open Mongo Mongo.Regex

/-! ### Patterns -/

/-- The text matches the LIKE pattern: `%` stands for a run of free characters, and every other
character for one that it may stand for. -/
def Like (free : Char → Bool) (stands : Char → Char → Bool) : List Char → List Char → Prop
  | [], s => s = []
  | c :: p, s =>
    if c = '%' then
      ∃ run rest, s = run ++ rest ∧ (∀ e ∈ run, free e = true) ∧ Like free stands p rest
    else ∃ e rest, s = e :: rest ∧ stands c e = true ∧ Like free stands p rest

/-- What a character of a pattern stands for in a regular expression. -/
def standsFor (d : Dialect) (c e : Char) : Bool :=
  if c = '.' then !d.isBreak e else d.alike c e

/-- The characters of a pattern have no meaning in regular expressions, full stops apart. -/
def Plain (p : List Char) : Prop :=
  ∀ c ∈ p, isMark c = true → c = '.'

instance (p : List Char) : Decidable (Plain p) :=
  inferInstanceAs (Decidable (∀ c ∈ p, isMark c = true → c = '.'))

/-! ### Reading the regular expression of a pattern -/

/-- The text of a pattern inside its regular expression. -/
def translated (p : List Char) : List Char :=
  p.flatMap fun c => if c = '%' then ['.', '*'] else [c]

def patternItem (c : Char) : Item :=
  if c = '%' then .many .any else .one (if c = '.' then .any else .char c)

theorem ne_anchor_of_atom? {c : Char} {a : Atom} (atom : atom? c = some a) : c ≠ '^' ∧ c ≠ '$' := by
  constructor <;>
  · rintro rfl
    simp [atom?, isMark] at atom

theorem read?_many {c : Char} {a : Atom} (atom : atom? c = some a) (rest : List Char) :
    read? (c :: '*' :: rest) = (read? rest).map (.many a :: ·) := by
  obtain ⟨caret, dollar⟩ := ne_anchor_of_atom? atom
  rw [read?, atom]
  · cases read? rest <;> rfl
  · exact caret
  · exact dollar

theorem read?_one {c : Char} {a : Atom} (atom : atom? c = some a) {rest : List Char}
    (single : ∀ e ∈ rest.head?, e ≠ '*') :
    read? (c :: rest) = (read? rest).map (.one a :: ·) := by
  obtain ⟨caret, dollar⟩ := ne_anchor_of_atom? atom
  rw [read?, atom]
  · cases read? rest <;> rfl
  · exact caret
  · exact dollar
  · rintro tail rfl
    exact single '*' rfl rfl

/-- Nothing that a pattern is written as starts with a star, so no star takes the character before
it that is not its own. -/
theorem head?_translated {p : List Char} (plain : Plain p) :
    ∀ e ∈ (translated p ++ ['$']).head?, e ≠ '*' := by
  cases p with
  | nil => simp [translated]
  | cons c p =>
    intro e first
    by_cases wild : c = '%'
    · obtain rfl : '.' = e := by simpa [translated, wild] using first
      decide
    · obtain rfl : c = e := by simpa [translated, wild] using first
      rintro rfl
      exact absurd (plain '*' (by simp) (by decide)) (by decide)

theorem read?_translated {p : List Char} (plain : Plain p) :
    read? (translated p ++ ['$']) = some (p.map patternItem ++ [.finish]) := by
  induction p with
  | nil => rfl
  | cons c p ih =>
    have rest : Plain p := fun e member => plain e (List.mem_cons_of_mem _ member)
    by_cases wild : c = '%'
    · have text : translated (c :: p) ++ ['$'] = '.' :: '*' :: (translated p ++ ['$']) := by
        simp [translated, wild]
      rw [text, read?_many rfl, ih rest]
      simp [patternItem, wild]
    · have text : translated (c :: p) ++ ['$'] = c :: (translated p ++ ['$']) := by
        simp [translated, wild]
      have atom : atom? c = some (if c = '.' then .any else .char c) := by
        by_cases stop : c = '.'
        · simp [atom?, stop]
        · have ordinary : isMark c = false := by
            rw [Bool.eq_false_iff]
            exact fun mark => stop (plain c (by simp) mark)
          simp [atom?, stop, ordinary]
      rw [text, read?_one atom (head?_translated rest), ih rest]
      simp [patternItem, wild]

/-! ### What the regular expression finds -/

variable (d : Dialect)

theorem accepts_patternItem (c e : Char) :
    Atom.accepts d (if c = '.' then .any else .char c) e = standsFor d c e := by
  unfold standsFor
  split <;> rfl

/-- Item by item along the pattern: each takes from the text what its character stands for, and the
end of the text is left to the last one. -/
theorem matchesAt_pattern (p before after : List Char) :
    MatchesAt d (p.map patternItem ++ [.finish]) before after ↔
      ∃ line ending, after = line ++ ending ∧ d.AtEnd ending ∧
        Like (!d.isBreak ·) (standsFor d) p line := by
  -- The place moves on with every item, so the induction is for all places.
  induction p generalizing before after with
  | nil =>
    simp only [List.map_nil, List.nil_append, MatchesAt, and_true, Like]
    constructor
    · exact fun atEnd => ⟨[], after, rfl, atEnd, rfl⟩
    · rintro ⟨line, ending, rfl, atEnd, rfl⟩
      exact atEnd
  | cons c p ih =>
    rw [List.map_cons, List.cons_append, patternItem]
    by_cases wild : c = '%'
    · simp only [if_pos wild, MatchesAt, ih, Like]
      constructor
      · rintro ⟨run, rest, rfl, free, line, ending, rfl, atEnd, like⟩
        exact ⟨run ++ line, ending, by simp, atEnd, run, line, rfl, free, like⟩
      · rintro ⟨_, ending, rfl, atEnd, run, line, rfl, free, like⟩
        exact ⟨run, line ++ ending, by simp, free, line, ending, rfl, atEnd, like⟩
    · simp only [if_neg wild, MatchesAt, ih, Like, accepts_patternItem]
      constructor
      · rintro ⟨e, rest, rfl, stands, line, ending, rfl, atEnd, like⟩
        exact ⟨e :: line, ending, by simp, atEnd, e, line, rfl, stands, like⟩
      · rintro ⟨_, ending, rfl, atEnd, e, line, rfl, stands, like⟩
        exact ⟨e, line ++ ending, by simp, stands, line, ending, rfl, atEnd, like⟩

theorem toList_likePattern (p : List Char) :
    (Condition.likePattern (String.ofList p)).toList = '^' :: (translated p ++ ['$']) := by
  simp [Condition.likePattern, translated]

/-- The regular expression of a plain pattern finds the texts that match the pattern from start to
end, where `%` stands for characters that are no line breaks. -/
theorem finds_iff_like {p : List Char} (plain : Plain p) :
    ∃ items, read? (Condition.likePattern (String.ofList p)).toList = some items ∧
      ∀ subject, Finds d items subject ↔ ∃ line ending, subject = line ++ ending ∧
        d.AtEnd ending ∧ Like (!d.isBreak ·) (standsFor d) p line := by
  refine ⟨.start :: (p.map patternItem ++ [.finish]), ?_, fun subject => ?_⟩
  · rw [toList_likePattern, read?, read?_translated plain]
    rfl
  · rw [← matchesAt_pattern d p [] subject]
    constructor
    · rintro ⟨before, after, rfl, rfl, matches_⟩
      exact matches_
    · exact fun matches_ => ⟨[], subject, rfl, rfl, matches_⟩

end SqlToMongo.Sql

namespace SqlToMongo.Statement

open Mongo Mongo.Regex Sql Text

/-! ### Conditions -/

/-- The clause that asks whether a field is like a pattern. -/
def likeClause (f : Surface.Word) (t : Surface.Quoted) : Surface.Clause :=
  .and (.atom (.test f (.like (.quoted t)))) .empty

theorem filterOf_like {f : Surface.Word} {t : Surface.Quoted} {s : List Char}
    (writes : (likeClause f t).Writes s) :
    filterOf s = [(f.text, .doc
      [("$regex", .string (Condition.likePattern (String.ofList t.content))),
       ("$options", .string "i")])] := by
  have terms := (likeClause f t).termsOf_reads (Surface.reads_lex_of_writes writes)
  rw [filterOf, Condition.parse, terms]
  rfl

/-- A LIKE asks for the regular expression in which each `%` is written `.*`. If no character of the
pattern but the full stop has a meaning in regular expressions, it finds the texts that match the
pattern, where `%` goes over characters that are no line breaks and a full stop stands for any one
of these. Where `$` stands before a last line break, such a text may have one more. -/
theorem like_finds_pattern (d : Dialect) (f : Surface.Word) (t : Surface.Quoted) {s : List Char}
    (writes : (likeClause f t).Writes s) :
    ∃ regex, filterOf s =
        [(f.text, .doc [("$regex", .string regex), ("$options", .string "i")])] ∧
      regex.toList = '^' :: (translated t.content ++ ['$']) ∧
      (Plain t.content → ∃ items, read? regex.toList = some items ∧
        ∀ subject, Finds d items subject ↔ ∃ line ending, subject = line ++ ending ∧
          d.AtEnd ending ∧ Like (!d.isBreak ·) (standsFor d) t.content line) :=
  ⟨_, filterOf_like writes, toList_likePattern t.content, finds_iff_like d⟩

/-- Letters regardless of case, lines that end in a line feed, and `$` before the last of them. -/
def folding : Dialect where
  alike c e := fold c == fold e
  isBreak c := c == '\n'
  endsEarly := true

/-- Both wildcards, letters in another case, and a line feed at the end. -/
theorem like_finds_pattern_stop :
    let f : Surface.Word := { chars := "name".toList }
    let t : Surface.Quoted := { mark := '\'', content := ['J', 'o', '%', '.', 'd'] }
    (likeClause f t).Writes "name like'Jo%.d'".toList ∧ Plain t.content ∧
    ∃ items, filterOf "name like'Jo%.d'".toList =
        [("name", .doc [("$regex", .string "^Jo.*.d$"), ("$options", .string "i")])] ∧
      read? "^Jo.*.d$".toList = some items ∧ Finds folding items "jO, ad\n".toList := by
  intro f t
  have writes : (likeClause f t).Writes "name like'Jo%.d'".toList :=
    ⟨[], "name like'Jo%.d'".toList, by decide,
      .cons [' '] (.word _) (by decide) (by decide) <|
      .cons [] (.keyword "like".toList (by decide)) (by decide) (by decide) <|
      .cons [] (.quoted _) (by decide) (by decide) .nil, rfl⟩
  have plain : Plain t.content := by decide
  have like : Like (!folding.isBreak ·) (standsFor folding) t.content "jO, ad".toList :=
    ⟨'j', _, rfl, rfl, 'O', _, rfl, rfl, [',', ' '], _, rfl, by decide, 'a', _, rfl, rfl, 'd', _,
      rfl, rfl, rfl⟩
  obtain ⟨regex, filter, text, finds⟩ := like_finds_pattern folding f t writes
  obtain rfl : regex = "^Jo.*.d$" := String.toList_injective (text.trans (by decide +kernel))
  obtain ⟨items, read, found⟩ := finds plain
  exact ⟨writes, plain, items, filter, read,
    (found _).mpr ⟨_, ['\n'], rfl, .inr ⟨rfl, '\n', rfl, rfl⟩, like⟩⟩

/-- A full stop finds a letter that it is not, and `%` does not find a text of two lines. -/
theorem like_finds_other :
    filterOf "f LIKE 'a.c'".toList =
      [("f", .doc [("$regex", .string "^a.c$"), ("$options", .string "i")])] ∧
    (∃ items, read? "^a.c$".toList = some items ∧ Finds folding items ['a', 'b', 'c']) ∧
    ¬Like (fun _ => true) folding.alike ['a', '.', 'c'] ['a', 'b', 'c'] ∧
    filterOf "f LIKE '%'".toList =
      [("f", .doc [("$regex", .string "^.*$"), ("$options", .string "i")])] ∧
    (∃ items, read? "^.*$".toList = some items ∧ ¬Finds folding items ['a', '\n', 'b']) ∧
    Like (fun _ => true) folding.alike ['%'] ['a', '\n', 'b'] := by
  refine ⟨by cbv, ⟨_, rfl, ?_⟩, ?_, by cbv, ⟨_, rfl, ?_⟩, ?_⟩
  · exact ⟨[], _, rfl, rfl, 'a', _, rfl, rfl, 'b', _, rfl, rfl, 'c', _, rfl, rfl, .inl rfl,
      trivial⟩
  · rintro ⟨_, _, first, _, _, _, second, stop, _⟩
    obtain ⟨_, rfl⟩ := List.cons.inj first
    obtain ⟨rfl, _⟩ := List.cons.inj second
    exact absurd stop (by decide)
  · rintro ⟨before, after, whole, rfl, run, rest, rfl, free, atEnd, _⟩
    -- The run has no line feed, so it does not reach the end, and the last character is none.
    rcases atEnd with rfl | ⟨_, c, stop, rfl⟩
    · have line : '\n' ∈ run := by
        rw [List.nil_append, List.append_nil] at whole
        simp [← whole]
      exact absurd (free _ line) (by decide)
    · have last := congrArg List.getLast? whole
      obtain rfl : 'b' = c := by simpa using last
      exact absurd stop (by decide)
  · exact ⟨_, [], (List.append_nil _).symm, by simp, rfl⟩

end SqlToMongo.Statement
