import Mathlib
import SqlToMongo.Proofs.Condition.Reading
import SqlToMongo.Proofs.Statement.Mentions
import SqlToMongo.Proofs.Statement.Update

/-!
# Literals in statements

An equation of a field and a literal, `a = 'x'`, is an assignment of an UPDATE or a condition. Read
by itself it means what it says, whatever the literal holds. Inside a statement it is cut short when
the literal mentions a keyword that the statement is cut at, and what is left is an equation with a
literal that never ends.

## Main result

`literal_is_data_iff`: when the content of a literal has no influence on how a statement is cut.
-/

namespace SqlToMongo.Statement

open Mongo Sql Text

/-! ### Names and equations -/

def isNameStart (c : Char) : Bool :=
  c.isAlpha || c == '_'

def isNamePart (c : Char) : Bool :=
  c.isAlphanum || c == '_'

/-- An ASCII letter or underscore, then such characters and digits; no keyword of conditions. -/
structure Identifier where
  chars : List Char
  start : chars.head?.any isNameStart = true := by decide
  parts : chars.all isNamePart = true := by decide
  plain : ∀ k ∈ Surface.Keyword.all, lowerAll chars ≠ k.letters := by decide

def Identifier.text (a : Identifier) : String := String.ofList a.chars

/-- The text of an equation: a name, and a literal whose opening quote is followed by `body`. -/
def equation (a : Identifier) (body : List Char) : List Char :=
  a.chars ++ ' ' :: '=' :: ' ' :: '\'' :: body

theorem toNat_of_isNamePart {c : Char} (part : isNamePart c = true) :
    48 ≤ c.toNat ∧ c.toNat ≤ 122 := by
  simp only [isNamePart, Char.isAlphanum, Bool.or_eq_true, beq_iff_eq] at part
  rcases part with (letter | digit) | rfl
  · have range := toNat_of_isAlpha letter
    omega
  · simp only [Char.isDigit, Bool.and_eq_true, decide_eq_true_eq] at digit
    exact ⟨digit.1, Nat.le_trans digit.2 (by decide)⟩
  · decide

/-- The characters of a name mean nothing else in a statement. -/
theorem isWordBreak_of_isNamePart {c : Char} (part : isNamePart c = true) :
    isWordBreak c = false := by
  have different (d : Char) (other : isNamePart d = false) : c ≠ d := by
    rintro rfl
    simp [part] at other
  have visible : isBlank c = false := by
    have range := toNat_of_isNamePart part
    simp only [isBlank, Bool.or_eq_false_iff, Bool.and_eq_false_iff, decide_eq_false_iff_not,
      beq_eq_false_iff_ne]
    omega
  simp (disch := decide) [isWordBreak, isOperatorChar, isQuote, visible, different]

namespace Identifier

variable (a : Identifier)

theorem toList_text : a.text.toList = a.chars := by
  rw [text, String.toList_ofList]

theorem nonempty : a.chars ≠ [] := by
  intro empty
  have start := a.start
  simp [empty] at start

theorem isWordBreak_chars : ∀ c ∈ a.chars, isWordBreak c = false :=
  fun c member => isWordBreak_of_isNamePart (List.all_eq_true.mp a.parts c member)

/-- The name as a word of a condition. -/
def word : Surface.Word where
  chars := a.chars
  nonempty := a.nonempty
  unbroken := by
    rw [List.all_eq_true]
    intro c member
    have unbroken := a.isWordBreak_chars c member
    rw [isWordBreak_eq] at unbroken
    simpa using unbroken
  plain := a.plain

theorem isBlank_chars : ∀ c ∈ a.chars, isBlank c = false :=
  a.word.isBlank_chars

theorem isGap_chars : ∀ c ∈ a.chars, isGap c = false :=
  fun c member => isGap_eq_false (a.isBlank_chars c member)

theorem isCollection : IsCollection a.chars :=
  ⟨a.nonempty, a.isGap_chars⟩

theorem unsplit_chars :
    ∀ c ∈ a.chars, isQuote c = false ∧ c ≠ ',' ∧ c ≠ '(' ∧ c ≠ ')' :=
  fun c member => unsplit_of_isWordBreak (a.isWordBreak_chars c member)

end Identifier

/-! ### An equation by itself -/

theorem trimEnd_append_cons {c : Char} (visible : isBlank c = false) (front rest : List Char) :
    trimEnd (front ++ c :: rest) = front ++ c :: trimEnd rest := by
  simp only [trimEnd, List.reverse_append, List.reverse_cons, List.append_assoc,
    List.singleton_append, List.dropWhile_append]
  split
  next empty =>
    rw [List.isEmpty_iff] at empty
    simp [visible, empty]
  next => simp

theorem equation_ne_nil (a : Identifier) (body : List Char) : equation a body ≠ [] := by
  simp [equation]

theorem trimStart_name (a : Identifier) (rest : List Char) :
    trimStart (a.chars ++ rest) = a.chars ++ rest := by
  obtain ⟨c, tail, shape⟩ := List.exists_cons_of_ne_nil a.nonempty
  have visible := a.isBlank_chars c (by simp [shape])
  simp [shape, trimStart, visible]

theorem trim_equation (a : Identifier) (body : List Char) :
    trim (equation a body) = equation a (trimEnd body) := by
  rw [trim, equation, trimStart_name]
  have whole := trimEnd_append_cons (by decide) (a.chars ++ [' ', '=', ' ']) body (c := '\'')
  simpa [equation] using whole

theorem trimEnd_closed (x : List Char) : trimEnd (x ++ ['\'']) = x ++ ['\''] :=
  trimEnd_append_cons (by decide) x []

/-- A literal with no quote before its last character runs to the end. -/
theorem takeQuoted_whole {q : Char} {body : List Char} (closed : q ∉ body.dropLast) :
    takeQuoted q body = (body, []) := by
  induction body with
  | nil => rfl
  | cons c rest ih =>
    cases rest with
    | nil => rfl
    | cons d rest =>
      rw [List.dropLast_cons_cons, List.mem_cons, not_or] at closed
      rw [takeQuoted, if_neg (Ne.symm closed.1), ih closed.2]

theorem splitItems_literal {q : Char} {body : List Char} (closed : q ∉ body.dropLast)
    (depth : Nat) : splitItems (some q) depth body = (body, []) := by
  induction body with
  | nil => rfl
  | cons c rest ih =>
    cases rest with
    | nil => simp [splitItems]
    | cons d rest =>
      rw [List.dropLast_cons_cons, List.mem_cons, not_or] at closed
      rw [splitItems]
      simp [openQuote, Ne.symm closed.1, ih closed.2]

theorem items_equation (a : Identifier) {body : List Char} (closed : '\'' ∉ body.dropLast) :
    items (equation a body) = [equation a (trimEnd body)] := by
  have name : ∀ c ∈ a.chars ++ [' ', '=', ' '],
      isQuote c = false ∧ c ≠ ',' ∧ c ≠ '(' ∧ c ≠ ')' := by
    intro c member
    rcases List.mem_append.mp member with member | member
    · exact a.unsplit_chars c member
    · simp only [List.mem_cons, List.not_mem_nil, or_false] at member
      rcases member with rfl | rfl | rfl <;> decide
  have whole : splitItems none 0 (equation a body) = (equation a body, []) := by
    have plain : Paired false (a.chars ++ [' ', '=', ' ']) := .of_plain name
    have split := splitItems_append plain 0 (by simp) ('\'' :: body)
    have literal := splitItems_literal closed 0
    have quote : splitItems none 0 ('\'' :: body) = ('\'' :: body, []) := by
      rw [splitItems]
      simp [openQuote, isQuote, depthAfter, literal]
    simpa [equation, quote] using split
  simp [items, whole, trim_equation, equation_ne_nil]

/-- An equation assigns to its field. -/
theorem assignment?_equation (a : Identifier) (body : List Char) :
    assignment? (equation a body) =
      some (a.text, (Literal.classify (' ' :: '\'' :: body)).toValue) := by
  have unequal : '=' ∉ a.chars ++ [' '] := by
    rw [List.mem_append, not_or]
    exact ⟨fun member => absurd (a.isWordBreak_chars _ member) (by decide), by decide⟩
  have shape : equation a body = (a.chars ++ [' ']) ++ '=' :: ' ' :: '\'' :: body := by
    simp [equation]
  have field : trim (a.chars ++ [' ']) = a.chars := by
    rw [trim_append_blanks (by decide)]
    exact a.word.trim_chars
  rw [shape, assignment?_cut unequal, field, if_neg (by simpa using a.nonempty)]
  rfl

theorem trim_literal (body : List Char) : trim (' ' :: '\'' :: body) = '\'' :: trimEnd body :=
  trimEnd_append_cons (by decide) [] body

theorem classify_closed (x : List Char) :
    Literal.classify (' ' :: '\'' :: (x ++ ['\''])) = .string (String.ofList x) := by
  have quoted : quoted? ('\'' :: (x ++ ['\''])) = some x := by simp [quoted?, isQuote]
  simp only [Literal.classify, trim_literal, trimEnd_closed, quoted]

theorem quote_notMem_trimEnd {x : List Char} (unquoted : '\'' ∉ x) : '\'' ∉ trimEnd x :=
  fun member => unquoted ((trimEnd_isPrefix x).mem member)

theorem quoted?_open {x : List Char} (unquoted : '\'' ∉ x) : quoted? ('\'' :: x) = none := by
  have last : x.getLast? ≠ some '\'' := fun last => unquoted (List.mem_of_getLast? last)
  simp [quoted?, last]

/-- A literal that never ends is taken for the name of a field. -/
theorem classify_open {x : List Char} (unquoted : '\'' ∉ x) :
    Literal.classify (' ' :: '\'' :: x) = .reference (String.ofList ('\'' :: trimEnd x)) := by
  have quoted := quoted?_open (quote_notMem_trimEnd unquoted)
  have numeral : Numeral.read? ('\'' :: trimEnd x) = none := by
    simp [Numeral.read?]
  have name : Literal.ofName ('\'' :: trimEnd x) =
      .reference (String.ofList ('\'' :: trimEnd x)) := by
    -- None of the words it is compared with starts with a quote.
    have different {t : String} (start : t.toList.head? ≠ some '\'') :
        String.ofList (lowerAll ('\'' :: trimEnd x)) ≠ t := by
      rintro rfl
      rw [String.toList_ofList] at start
      exact start rfl
    unfold Literal.ofName
    split
    next same => exact absurd same (different (by decide))
    next same => exact absurd same (different (by decide))
    next same => exact absurd same (different (by decide))
    next => rfl
  simp [Literal.classify, trim_literal, quoted, numeral, name]

/-! ### An equation as a condition -/

/-- A word, the symbol `=` and a literal that runs to the end are three tokens. -/
theorem lex_equal_literal (w : Surface.Word) {q : Char} {body : List Char}
    (quote : isQuote q = true) (whole : takeQuoted q body = (body, [])) :
    Token.lex (w.chars ++ ' ' :: '=' :: ' ' :: q :: body) =
      [⟨[], .word, w.chars⟩, ⟨[' '], .operator, ['=']⟩, ⟨[' '], .string, q :: body⟩] := by
  obtain ⟨c, rest, shape⟩ := List.exists_cons_of_ne_nil w.nonempty
  have word : Token.scan c (rest ++ ' ' :: '=' :: ' ' :: q :: body) =
      (.word, c :: rest, ' ' :: '=' :: ' ' :: q :: body) := by
    rw [Surface.scan_word (shape ▸ w.isWordBreak_chars) (by simp; decide), ← shape, w.ofWord_chars]
  have operator : Token.scan '=' ([] ++ ' ' :: q :: body) = (.operator, ['='], ' ' :: q :: body) :=
    Surface.scan_operator (by decide) (by simp; decide)
  have literal : Token.scan q (body ++ []) = (.string, q :: body, []) := by
    simp [Token.scan, quote, whole]
  have none : ∀ d ∈ ([] : List Char), isBlank d = true := by simp
  have space : ∀ d ∈ [' '], isBlank d = true := by decide
  have first := Token.lex_scan none (w.isBlank_chars c (by simp [shape])) word
  have second := Token.lex_scan space (by decide) operator
  have third := Token.lex_scan space (isBlank_of_isQuote quote) literal
  have nothing : Token.lex [] = [] := Token.lex_blanks none
  simp only [List.nil_append, List.cons_append, List.append_nil] at first second third
  rw [shape, List.cons_append, first, second, third, nothing]

/-- The condition that a word equals a literal asks for the text of the literal without its
quotes. -/
theorem filterOf_of_lex {s : List Char} {field symbol value : Token} {w : Surface.Word}
    (tokens : Token.lex s = [field, symbol, value]) (name : Surface.Reads field (.word w))
    (equal : Surface.Reads symbol (.symbol .eq)) (literal : value.kind = .string) :
    filterOf s = [(w.text, .doc [("$eq", .string (Condition.valueOf [value]))])] := by
  have solid (sep : TokenKind) (connective : sep = .and ∨ sep = .or) :
      Solid sep ([field, symbol, value].map Token.kind) := by
    apply solid_of_plain
    rcases connective with rfl | rfl <;>
      simp [name.1, equal.1, literal, Surface.Lexeme.kind]
  have leaf := Surface.leaf_symbol name equal (.inr literal)
  have terms : Condition.termsOf [field, symbol, value] =
      [.compare w.text .eq (Condition.valueOf [value])] := by
    rw [Condition.termsOf_eq, Token.parts_solid (by decide) (solid .and (.inl rfl)) (by simp)]
    simp only [List.flatMap_cons, List.flatMap_nil, List.append_nil]
    rw [Token.parts_solid (by decide) (solid .or (.inr rfl)) (by simp), List.map_singleton,
      Condition.atom, Token.enclosed?_eq_none (by simp [name.1, Surface.Lexeme.kind]), leaf]
    rfl
  rw [filterOf, Condition.parse, tokens, terms]
  rfl

/-- As a condition an equation asks for the text behind its symbol without the quotes around it. -/
theorem filterOf_equation (a : Identifier) {body : List Char} (closed : '\'' ∉ body.dropLast) :
    filterOf (equation a body) =
      [(a.text, .doc [("$eq", .string (String.ofList (unquote ('\'' :: trimEnd body))))])] := by
  have tokens := lex_equal_literal a.word (show isQuote '\'' = true by decide)
    (takeQuoted_whole closed)
  have trimmed : trim ('\'' :: body) = '\'' :: trimEnd body := trim_literal body
  have filter := filterOf_of_lex tokens ⟨rfl, .word a.word⟩ ⟨rfl, .symbol .eq⟩ rfl
  rw [Condition.valueOf, Token.sourceText, Token.source, List.flatMap_nil, List.append_nil,
    trimmed] at filter
  exact filter

/-! ### An equation inside a statement -/

theorem keywords?_eq_none_of_head {ks : List String} {c : Char} (visible : isGap c = false)
    (s : List Char) : keywords? ks (c :: s) = none := by
  cases ks <;> simp [keywords?, gap?, visible]

theorem keywords?_eq_none_of_mark {ks : List String} (nonempty : ks ≠ [])
    (lettered : ∀ k ∈ ks, isLettered k = true) {c : Char} (visible : isGap c = false)
    (mark : (fold c).isLower = false) (s : List Char) : keywords? ks (' ' :: c :: s) = none := by
  obtain ⟨k, ks, rfl⟩ := List.exists_cons_of_ne_nil nonempty
  have letters := lettered k (by simp)
  simp only [isLettered, Bool.and_eq_true, Bool.not_eq_true', List.isEmpty_eq_false_iff,
    List.all_eq_true] at letters
  obtain ⟨d, rest, shape⟩ := List.exists_cons_of_ne_nil letters.1
  have different : fold c ≠ d := by
    rintro rfl
    have small := letters.2 (fold c) (by simp [shape])
    simp [mark] at small
  have space : isGap ' ' = true := by decide
  simp [keywords?, gap?, space, visible, shape, keyword?, different]

theorem keywords?_of_spelled {k : String} (lettered : isLettered k = true) {word rest : List Char}
    (spelled : Spelled k word) (ahead : NoGapAhead rest) :
    keywords? [k] ((' ' :: word ++ [' ']) ++ rest) = some rest := by
  have space : Gap [' '] := by decide
  exact (keywords?_eq_some_iff (by simpa using lettered)).mpr
    ⟨_, .keyword space spelled (.gap space), rfl, ahead⟩

variable {α : Type} {openings : List (List String)} {accept : List Char → Option α}

/-- No keyword stands before the literal of an equation. -/
theorem cutBefore?_equation (heeds : Heeds openings accept) (a : Identifier) (body : List Char) :
    cutBefore? accept (equation a body) =
      (cutBefore? accept body).map fun p => (equation a p.1, p.2) := by
  have word : cutBefore? accept (equation a body) =
      (cutBefore? accept (' ' :: '=' :: ' ' :: '\'' :: body)).map
        fun p => (a.chars ++ p.1, p.2) := by
    apply cutBefore?_append
    intro pre back whole nonempty
    obtain ⟨c, rest, rfl⟩ := List.exists_cons_of_ne_nil nonempty
    apply heeds.eq_none (by simp)
    intro ks _
    exact keywords?_eq_none_of_head (a.isGap_chars c (by simp [whole])) _
  have beforeSymbol : accept (' ' :: '=' :: ' ' :: '\'' :: body) = none :=
    heeds.eq_none (by simp) fun ks listed => keywords?_eq_none_of_mark
      (heeds.lettered ks listed).1 (heeds.lettered ks listed).2 (by decide) (by decide) _
  have symbol : accept ('=' :: ' ' :: '\'' :: body) = none :=
    heeds.eq_none (by simp) fun ks _ => keywords?_eq_none_of_head (by decide) _
  have beforeQuote : accept (' ' :: '\'' :: body) = none :=
    heeds.eq_none (by simp) fun ks listed => keywords?_eq_none_of_mark
      (heeds.lettered ks listed).1 (heeds.lettered ks listed).2 (by decide) (by decide) _
  have quote : accept ('\'' :: body) = none :=
    heeds.eq_none (by simp) fun ks _ => keywords?_eq_none_of_head (by decide) _
  rw [word]
  simp only [cutBefore?, beforeSymbol, symbol, beforeQuote, quote, Option.map_map]
  rfl

/-- An equation is cut off whole, or inside its literal. -/
theorem cut_equation (heeds : Heeds openings accept) (a : Identifier) (x : List Char)
    {rest : List Char} {r : α} (found : accept rest = some r) :
    (¬Mentions openings x → cutBefore? accept (equation a (x ++ '\'' :: rest)) =
      some (equation a (x ++ ['\'']), r)) ∧
    (Mentions openings x → ∃ front r', front <+: x ∧
      cutBefore? accept (equation a (x ++ '\'' :: rest)) = some (equation a front, r')) := by
  obtain ⟨silent, loud⟩ := heeds.cut_literal x rest
  rw [cutBefore?_equation heeds]
  constructor
  · intro mentions
    rw [silent mentions, cutBefore?_of_accept found]
    rfl
  · intro mentions
    obtain ⟨front, r', isPrefix, cut⟩ := loud mentions
    exact ⟨front, r', isPrefix, by rw [cut]; rfl⟩

theorem quote_notMem_dropLast {x : List Char} (unquoted : '\'' ∉ x) :
    '\'' ∉ x.dropLast ∧ '\'' ∉ (x ++ ['\'']).dropLast :=
  ⟨fun member => unquoted (List.mem_of_mem_dropLast member), by simpa using unquoted⟩

/-! ### UPDATE -/

/-- What an equation sets. -/
def setDocument (a : Identifier) (x : String) : Document :=
  [("$set", .doc [(a.text, .string x)])]

/-- What an equation asks for. -/
def equals (b : Identifier) (y : String) : Document :=
  [(b.text, .doc [("$eq", .string y)])]

theorem UpdateClauses.read?_text (c : Identifier) {body : List Char} (ahead : NoGapAhead body) :
    read? ("UPDATE ".toList ++ c.chars ++ " SET ".toList ++ body) =
      (cutBefore? condition? body).map fun p => ⟨c.chars, p.1, p.2⟩ := by
  have word : keyword? "update".toList ("UPDATE ".toList ++ c.chars ++ " SET ".toList ++ body) =
      some (' ' :: (c.chars ++ " SET ".toList ++ body)) :=
    keyword?_eq_some_iff.mpr ⟨"UPDATE".toList, by decide, by simp⟩
  have gap : gap? (' ' :: (c.chars ++ " SET ".toList ++ body)) =
      some (c.chars ++ " SET ".toList ++ body) :=
    gap?_eq_some_iff.mpr ⟨[' '], by decide, rfl, by
      rw [List.append_assoc]
      exact c.isCollection.noGapAhead _⟩
  have ran : run? (!isGap ·) (c.chars ++ " SET ".toList ++ body) =
      some (c.chars, " SET ".toList ++ body) :=
    run?_collection.mpr ⟨by rw [List.append_assoc], c.isCollection, by simp; decide⟩
  have set : keywords? ["set"] (" SET ".toList ++ body) = some body :=
    keywords?_of_spelled (by decide) (show Spelled "set" "SET".toList by decide) ahead
  simp only [read?, word, gap, ran, set, Option.bind_eq_bind, Option.bind_some]
  cases cutBefore? condition? body <;> rfl

theorem noGapAhead_equation (a : Identifier) (body : List Char) : NoGapAhead (equation a body) :=
  a.isCollection.noGapAhead _

/-- The text of a closed literal is its value. -/
theorem unquote_closed (x : List Char) : unquote ('\'' :: trimEnd (x ++ ['\''])) = x := by
  rw [trimEnd_closed]
  simp [unquote, quoted?, isQuote]

/-- A value with a quote is no value of a text without one. -/
theorem ofList_ne_of_quote {x : String} (unquoted : '\'' ∉ x.toList) {s : List Char}
    (quote : '\'' ∈ s) : String.ofList s ≠ x := by
  rintro rfl
  exact unquoted (by rwa [String.toList_ofList])

theorem filterOf_closed (b : Identifier) {y : String} (unquoted : '\'' ∉ y.toList) :
    filterOf (equation b (y.toList ++ ['\''])) = equals b y := by
  have filter := filterOf_equation b (quote_notMem_dropLast unquoted).2
  rwa [unquote_closed, String.ofList_toList] at filter

theorem optionalFilter_closed (b : Identifier) {y : String} (unquoted : '\'' ∉ y.toList) :
    optionalFilter (equation b (y.toList ++ ['\''])) = equals b y := by
  simp [optionalFilter, trim_equation, trimEnd_closed, equation_ne_nil, filterOf_closed b unquoted]

theorem compileUpdate_text_iff (c a : Identifier) {x : String} (unquoted : '\'' ∉ x.toList)
    {tail clause : List Char} (found : condition? tail = some clause) :
    compileUpdate ("UPDATE ".toList ++ c.chars ++ " SET ".toList ++
        equation a (x.toList ++ '\'' :: tail)) =
      .ok (.updateMany c.text (optionalFilter clause) (setDocument a x)) ↔
    ¬Mentions [["where"]] x.toList := by
  obtain ⟨silent, loud⟩ := cut_equation heeds_condition? a x.toList found
  have read := UpdateClauses.read?_text c
    (noGapAhead_equation a (x.toList ++ '\'' :: tail))
  constructor
  · intro compiled mentions
    -- Cut inside the literal, the value is a reference that starts with its quote.
    obtain ⟨front, clause', isPrefix, cut⟩ := loud mentions
    have inside : '\'' ∉ front := fun member => unquoted (isPrefix.mem member)
    rw [cut, Option.map_some] at read
    have short := quote_notMem_trimEnd inside
    simp only [compileUpdate, read, items_equation a (quote_notMem_dropLast inside).1,
      List.filterMap_cons, List.filterMap_nil, assignment?_equation, classify_open short,
      Literal.toValue, Except.ok.injEq, Command.updateMany.injEq, setDocument] at compiled
    obtain ⟨_, _, same⟩ := compiled
    have value : "$" ++ String.ofList ('\'' :: trimEnd (trimEnd front)) = x := by
      simpa [Document.ofEntries, Document.setAll, Document.set] using same
    apply unquoted
    simp [← value]
  · intro mentions
    rw [silent mentions, Option.map_some] at read
    have items := items_equation a (quote_notMem_dropLast unquoted).2
    rw [trimEnd_closed] at items
    simp only [compileUpdate, read, items, List.filterMap_cons, List.filterMap_nil,
      assignment?_equation, classify_closed, String.ofList_toList]
    rfl

/-! ### SELECT -/

namespace SelectClauses

theorem source?_text (c : Identifier) {body : List Char} (ahead : NoGapAhead body) :
    source? (" FROM ".toList ++ (c.chars ++ (" WHERE ".toList ++ body))) =
      (cutBefore? later? body).map fun later => (c.chars, later) := by
  have from_ : keywords? ["from"] (" FROM ".toList ++ (c.chars ++ (" WHERE ".toList ++ body))) =
      some (c.chars ++ (" WHERE ".toList ++ body)) :=
    keywords?_of_spelled (by decide) (show Spelled "from" "FROM".toList by decide)
      (c.isCollection.noGapAhead _)
  have ran : run? isCollectionChar (c.chars ++ (" WHERE ".toList ++ body)) =
      some (c.chars, " WHERE ".toList ++ body) := by
    refine run?_eq_some_iff.mpr ⟨rfl, c.nonempty, fun d member => ?_, by simp; decide⟩
    have paren : d ≠ '(' := by
      rintro rfl
      exact absurd (c.isWordBreak_chars _ member) (by decide)
    simp [isCollectionChar, c.isGap_chars d member, paren]
  have where_ : keywords? ["where"] (" WHERE ".toList ++ body) = some body :=
    keywords?_of_spelled (by decide) (show Spelled "where" "WHERE".toList by decide) ahead
  have tail : tail? (" WHERE ".toList ++ body) = cutBefore? later? body := by
    rw [tail?, optionalClause?, where_]
    rfl
  simp only [source?, from_, ran, tail, Option.bind_eq_bind, Option.bind_some]
  cases cutBefore? later? body <;> rfl

theorem read?_star {source collection condition grouping having ordering : List Char}
    {counts : Counts}
    (found : source? source = some (collection, condition, grouping, having, ordering, counts)) :
    read? ("SELECT *".toList ++ source) = some
      { fields := ['*'], collection := trim collection, condition := trim condition,
        grouping := trim grouping, having := trim having, ordering := trim ordering, counts } := by
  have word : keyword? "select".toList ("SELECT *".toList ++ source) =
      some (' ' :: '*' :: source) :=
    keyword?_eq_some_iff.mpr ⟨"SELECT".toList, by decide, by simp⟩
  have gap : gap? (' ' :: '*' :: source) = some ('*' :: source) :=
    gap?_eq_some_iff.mpr ⟨[' '], by decide, rfl, by simp [NoGapAhead]; decide⟩
  have star : source? ('*' :: source) = none := by
    have closed : keywords? ["from"] ('*' :: source) = none :=
      keywords?_eq_none_of_head (by decide) _
    simp [source?, closed]
  have fields : cutBefore? source? ('*' :: source) =
      some (['*'], collection, condition, grouping, having, ordering, counts) := by
    rw [cutBefore?, star, cutBefore?_of_accept found]
    rfl
  have single : trim ['*'] = ['*'] := by decide
  simp only [read?, word, gap, fields, Option.bind_eq_bind, Option.bind_some]
  simp [single]

theorem read?_text (c : Identifier) {body condition grouping having ordering : List Char}
    {counts : Counts} (ahead : NoGapAhead body)
    (cut : cutBefore? later? body = some (condition, grouping, having, ordering, counts)) :
    read? ("SELECT * FROM ".toList ++ c.chars ++ " WHERE ".toList ++ body) = some
      { fields := ['*'], collection := c.chars, condition := trim condition,
        grouping := trim grouping, having := trim having, ordering := trim ordering, counts } := by
  have source := source?_text c ahead
  rw [cut, Option.map_some] at source
  have read := read?_star source
  rw [show trim c.chars = c.chars from c.word.trim_chars] at read
  simpa using read

end SelectClauses

/-- The filter of a query is that of the condition that was read. -/
theorem filter_of_compileSelect {s : List Char} {clauses : SelectClauses} {query : Find}
    (read : SelectClauses.read? s = some clauses) (compiled : compileSelect s = .ok (.find query)) :
    query.filter = if clauses.condition.isEmpty then [] else filterOf clauses.condition := by
  simp only [compileSelect, read, bind, Except.bind, pure, Except.pure] at compiled
  split at compiled <;> try cases compiled
  split at compiled <;> try cases compiled
  split at compiled <;> try cases compiled
  split at compiled
  · cases compiled
    rfl
  · cases compiled

theorem keywords?_eq_none_of_word {k : String} {ks : List String} {s rest : List Char}
    (gap : gap? s = some rest) (other : keyword? k.toList rest = none) :
    keywords? (k :: ks) s = none := by
  simp [keywords?, gap, other]

theorem later?_order (k : Identifier) :
    SelectClauses.later? (" ORDER BY ".toList ++ k.chars) =
      some ([], [], k.chars, ⟨none, none, none⟩) := by
  have space : Gap [' '] := by decide
  have gap : gap? (" ORDER BY ".toList ++ k.chars) = some ("ORDER BY ".toList ++ k.chars) :=
    gap?_eq_some_iff.mpr ⟨[' '], space, rfl, by simp [NoGapAhead]; decide⟩
  have group : keywords? ["group", "by"] (" ORDER BY ".toList ++ k.chars) = none :=
    keywords?_eq_none_of_word gap rfl
  have having_ : keywords? ["having"] (" ORDER BY ".toList ++ k.chars) = none :=
    keywords?_eq_none_of_word gap rfl
  have order : keywords? ["order", "by"] (" ORDER BY ".toList ++ k.chars) = some k.chars :=
    (keywords?_eq_some_iff (by decide)).mpr ⟨" ORDER BY ".toList,
      .keyword space (show Spelled "order" "ORDER".toList by decide)
        (.keyword space (show Spelled "by" "BY".toList by decide) (.gap space)),
      rfl, by simpa using k.isCollection.noGapAhead []⟩
  -- Inside a name there is no gap, so nothing follows it before the end.
  have counts : cutBefore? Counts.read? k.chars = some (k.chars, ⟨none, none, none⟩) := by
    refine cutBefore?_eq_some_iff.mpr ⟨[], by simp, rfl, fun pre back whole nonempty => ?_⟩
    obtain ⟨d, rest, rfl⟩ := List.exists_cons_of_ne_nil nonempty
    have visible := k.isGap_chars d (by simp [whole])
    simp [Counts.read?, Counts.offset?, keywords?_eq_none_of_head visible]
  simp only [SelectClauses.later?, optionalClause?, group, having_, order, counts]
  rfl

theorem sortKeys_name (k : Identifier) : sortKeys k.chars = [(k.text, .int 1)] := by
  have single : items k.chars = [k.chars] := by
    have plain : Paired false k.chars := .of_plain k.unsplit_chars
    have whole := splitItems_append plain 0 (by simp) []
    have trimmed : trim k.chars = k.chars := k.word.trim_chars
    simp only [List.append_nil, splitItems] at whole
    simp [items, whole, trimmed, k.nonempty]
  have key : sortKey k.chars = (k.text, 1) := by
    -- The name is one word, so a direction would have no key before it.
    have last : k.chars.reverse.takeWhile (!isGap ·) = k.chars.reverse := by
      rw [List.takeWhile_eq_self_iff]
      intro c member
      simp [k.isGap_chars c (List.mem_reverse.mp member)]
    simp [sortKey, last, Identifier.text]
  simp [sortKeys, single, key, Document.ofEntries, Document.setAll, Document.set]

/-- The query for the documents that an equation asks for, sorted by a field. -/
def sortedFind (c b k : Identifier) (y : String) : Command :=
  .find {
    collection := c.text
    filter := equals b y
    projection := []
    sort := some [(k.text, .int 1)]
    skip := none
    limit := none }

theorem compileSelect_text_iff (c b k : Identifier) {y : String} (unquoted : '\'' ∉ y.toList) :
    compileSelect ("SELECT * FROM ".toList ++ c.chars ++ " WHERE ".toList ++
        equation b (y.toList ++ '\'' :: (" ORDER BY ".toList ++ k.chars))) =
      .ok (sortedFind c b k y) ↔
    ¬Mentions laterKeywords y.toList := by
  obtain ⟨silent, loud⟩ := cut_equation SelectClauses.heeds_later? b y.toList (later?_order k)
  have ahead := noGapAhead_equation b (y.toList ++ '\'' :: (" ORDER BY ".toList ++ k.chars))
  constructor
  · intro compiled mentions
    obtain ⟨front, ⟨grouping, having, ordering, counts⟩, isPrefix, cut⟩ := loud mentions
    have inside : '\'' ∉ front := fun member => unquoted (isPrefix.mem member)
    have short := quote_notMem_trimEnd inside
    have filter := filter_of_compileSelect (SelectClauses.read?_text c ahead cut) compiled
    -- An unclosed literal keeps its opening quote, and the content has none.
    have open_ : unquote ('\'' :: trimEnd (trimEnd front)) = '\'' :: trimEnd (trimEnd front) := by
      rw [unquote, quoted?_open (quote_notMem_trimEnd short)]
      rfl
    simp only [trim_equation, List.isEmpty_iff, equation_ne_nil, if_false, open_,
      filterOf_equation b (quote_notMem_dropLast short).1, equals] at filter
    have value : y = String.ofList ('\'' :: trimEnd (trimEnd front)) := by simpa using filter
    exact ofList_ne_of_quote unquoted (by simp) value.symm
  · intro mentions
    have read := SelectClauses.read?_text c ahead (silent mentions)
    have filter := filterOf_closed b unquoted
    have trimmed : trim k.chars = k.chars := k.word.trim_chars
    simp only [compileSelect, read, bind, Except.bind, pure, Except.pure, Option.mapM_none]
    simp [findCommand, sortedFind, trim_equation, trimEnd_closed, filter, equation_ne_nil, trimmed,
      k.nonempty, sortKeys_name, projection, Identifier.text, show trim [] = [] from rfl]

/-! ### Statements in canonical layout -/

theorem settled_word {chunk : List Char} (nonempty : chunk ≠ [])
    (visible : ∀ c ∈ chunk, isLayout c = false ∧ isQuote c = false) : Settled (' ' :: chunk) := by
  obtain ⟨c, rest, rfl⟩ := List.exists_cons_of_ne_nil nonempty
  exact (settled_visible visible).space rfl (visible c (by simp)).1

theorem Identifier.settled (a : Identifier) : Settled (' ' :: a.chars) :=
  settled_word a.nonempty fun c member =>
    ⟨isLayout_eq_false (a.isBlank_chars c member), (a.unsplit_chars c member).1⟩

theorem settled_equation (a : Identifier) {x : List Char} (unquoted : '\'' ∉ x) :
    Settled (' ' :: equation a (x ++ ['\''])) := by
  have symbol : Settled [' ', '='] := settled_word (by simp) (by decide)
  have literal : Settled (' ' :: ('\'' :: x ++ ['\''])) :=
    (settled_quoted (by decide) unquoted).space rfl (by decide)
  simpa [equation] using (a.settled.append symbol).append literal

/-- A settled text goes to the compiler that its first word names. -/
theorem compile_of_settled {sql : String} {s : List Char} {kind : Kind} (text : sql.toList = s)
    (settled : Settled s) (first : ∀ c ∈ s.head?, isBlank c = false)
    (last : ∀ c ∈ s.getLast?, (isBlank c || c == ';') = false) (named : kind? s = some kind) :
    compile sql = kind.compile s := by
  simp only [compile, text, normalize_eq_self settled first last, named]

/-- `UPDATE c SET a = 'x'` -/
def updateText (c a : Identifier) (x : String) : String :=
  "UPDATE " ++ c.text ++ " SET " ++ a.text ++ " = '" ++ x ++ "'"

/-- `UPDATE c SET a = 'x' WHERE b = 'y'` -/
def updateWhereText (c a b : Identifier) (x y : String) : String :=
  updateText c a x ++ " WHERE " ++ b.text ++ " = '" ++ y ++ "'"

/-- `SELECT * FROM c WHERE b = 'y' ORDER BY k` -/
def selectText (c b k : Identifier) (y : String) : String :=
  "SELECT * FROM " ++ c.text ++ " WHERE " ++ b.text ++ " = '" ++ y ++ "' ORDER BY " ++ k.text

theorem toList_updateText (c a : Identifier) (x : String) :
    (updateText c a x).toList = "UPDATE ".toList ++ c.chars ++ " SET ".toList ++
      equation a (x.toList ++ ['\'']) := by
  unfold updateText
  simp only [String.toList_append, Identifier.toList_text]
  simp [equation]

theorem toList_updateWhereText (c a b : Identifier) (x y : String) :
    (updateWhereText c a b x y).toList = "UPDATE ".toList ++ c.chars ++ " SET ".toList ++
      equation a (x.toList ++ '\'' :: (" WHERE ".toList ++ equation b (y.toList ++ ['\'']))) := by
  unfold updateWhereText
  simp only [String.toList_append, Identifier.toList_text, toList_updateText]
  simp [equation]

theorem toList_selectText (c b k : Identifier) (y : String) :
    (selectText c b k y).toList = "SELECT * FROM ".toList ++ c.chars ++ " WHERE ".toList ++
      equation b (y.toList ++ '\'' :: (" ORDER BY ".toList ++ k.chars)) := by
  unfold selectText
  simp only [String.toList_append, Identifier.toList_text]
  simp [equation]

theorem settled_update (c a : Identifier) {x : List Char} (unquoted : '\'' ∉ x) :
    Settled ("UPDATE ".toList ++ c.chars ++ " SET ".toList ++ equation a (x ++ ['\''])) := by
  have update : Settled "UPDATE".toList := settled_visible (by decide)
  have set : Settled (' ' :: "SET".toList) := settled_word (by simp) (by decide)
  have whole := ((update.append c.settled).append set).append (settled_equation a unquoted)
  simpa [equation] using whole

theorem settled_select (c b k : Identifier) {y : List Char} (unquoted : '\'' ∉ y) :
    Settled ("SELECT * FROM ".toList ++ c.chars ++ " WHERE ".toList ++
      equation b (y ++ '\'' :: (" ORDER BY ".toList ++ k.chars))) := by
  have select : Settled "SELECT".toList := settled_visible (by decide)
  have star : Settled (' ' :: "*".toList) := settled_word (by simp) (by decide)
  have from_ : Settled (' ' :: "FROM".toList) := settled_word (by simp) (by decide)
  have where_ : Settled (' ' :: "WHERE".toList) := settled_word (by simp) (by decide)
  have order : Settled (' ' :: "ORDER".toList) := settled_word (by simp) (by decide)
  have by_ : Settled (' ' :: "BY".toList) := settled_word (by simp) (by decide)
  have front := ((select.append star).append from_).append c.settled
  have back := ((settled_equation b unquoted).append order).append (by_.append k.settled)
  have whole := front.append (where_.append back)
  simpa [equation] using whole

theorem compile_updateText (c a : Identifier) {x : String} (unquoted : '\'' ∉ x.toList) :
    compile (updateText c a x) =
      compileUpdate ("UPDATE ".toList ++ c.chars ++ " SET ".toList ++
        equation a (x.toList ++ ['\''])) := by
  change _ = Kind.update.compile _
  apply compile_of_settled (toList_updateText c a x) (settled_update c a unquoted)
  · simp
    decide
  · simp [equation, List.getLast?_append, List.getLast?_cons]
    decide
  · rfl

theorem compile_updateWhereText (c a b : Identifier) {x y : String} (unquotedX : '\'' ∉ x.toList)
    (unquotedY : '\'' ∉ y.toList) :
    compile (updateWhereText c a b x y) =
      compileUpdate ("UPDATE ".toList ++ c.chars ++ " SET ".toList ++
        equation a (x.toList ++ '\'' :: (" WHERE ".toList ++
          equation b (y.toList ++ ['\''])))) := by
  change _ = Kind.update.compile _
  apply compile_of_settled (toList_updateWhereText c a b x y)
  · have where_ : Settled (' ' :: "WHERE".toList) := settled_word (by simp) (by decide)
    have whole := (settled_update c a unquotedX).append
      (where_.append (settled_equation b unquotedY))
    simpa [equation] using whole
  · simp
    decide
  · simp [equation, List.getLast?_append, List.getLast?_cons]
    decide
  · rfl

theorem compile_selectText (c b k : Identifier) {y : String} (unquoted : '\'' ∉ y.toList) :
    compile (selectText c b k y) =
      compileSelect ("SELECT * FROM ".toList ++ c.chars ++ " WHERE ".toList ++
        equation b (y.toList ++ '\'' :: (" ORDER BY ".toList ++ k.chars))) := by
  change _ = Kind.select.compile _
  apply compile_of_settled (toList_selectText c b k y) (settled_select c b k unquoted)
  · simp
    decide
  · intro d last
    have member : d ∈ k.chars := by
      have shape : "SELECT * FROM ".toList ++ c.chars ++ " WHERE ".toList ++
          equation b (y.toList ++ '\'' :: (" ORDER BY ".toList ++ k.chars)) =
          "SELECT * FROM ".toList ++ c.chars ++ " WHERE ".toList ++
            equation b (y.toList ++ '\'' :: " ORDER BY ".toList) ++ k.chars := by
        simp [equation]
      rw [shape, List.getLast?_append_of_ne_nil _ k.nonempty] at last
      exact List.mem_of_getLast? last
    have part := List.all_eq_true.mp k.parts d member
    have different : d ≠ ';' := by
      rintro rfl
      exact absurd part (by decide)
    simp [k.isBlank_chars d member, different]
  · rfl

/-- The content of a literal is data, and the statement compiles to what it says, exactly when the
content does not mention the keywords that the rest of the statement is searched for: WHERE in what
an UPDATE sets, GROUP BY, HAVING and ORDER BY in what a SELECT asks for. -/
theorem literal_is_data_iff (c a b k : Identifier) (x y : String)
    (unquotedX : ∀ q ∈ x.toList, isQuote q = false)
    (unquotedY : ∀ q ∈ y.toList, isQuote q = false) :
    (compile (updateWhereText c a b x y) =
        .ok (.updateMany c.text (equals b y) (setDocument a x)) ↔
      ¬Mentions [["where"]] x.toList) ∧
    (compile (updateText c a x) = .ok (.updateMany c.text [] (setDocument a x)) ↔
      ¬Mentions [["where"]] x.toList) ∧
    (compile (selectText c b k y) = .ok (sortedFind c b k y) ↔
      ¬Mentions laterKeywords y.toList) := by
  have plainX : '\'' ∉ x.toList := fun member => absurd (unquotedX _ member) (by decide)
  have plainY : '\'' ∉ y.toList := fun member => absurd (unquotedY _ member) (by decide)
  refine ⟨?_, ?_, ?_⟩
  · have found : condition? (" WHERE ".toList ++ equation b (y.toList ++ ['\''])) =
        some (equation b (y.toList ++ ['\''])) := by
      have opened := keywords?_of_spelled (by decide)
        (show Spelled "where" "WHERE".toList by decide)
        (noGapAhead_equation b (y.toList ++ ['\'']))
      exact condition?_eq_some_iff.mpr ⟨some _, wherePart_some_iff.mpr opened, rfl⟩
    rw [compile_updateWhereText c a b plainX plainY, ← optionalFilter_closed b plainY]
    exact compileUpdate_text_iff c a plainX found
  · rw [compile_updateText c a plainX]
    have found : condition? [] = some [] := rfl
    exact compileUpdate_text_iff c a plainX found
  · rw [compile_selectText c b k plainY]
    exact compileSelect_text_iff c b k plainY

/-- Words that only contain the keywords, punctuation and other keywords change nothing. -/
theorem literal_is_data_iff_ordinary :
    let t : Identifier := { chars := ['t'] }
    let note : Identifier := { chars := "note".toList }
    let id : Identifier := { chars := "id".toList }
    let k : Identifier := { chars := "limit".toList }
    let x := "somewhere,  order by (AND"
    let y := "x where y limit 5;"
    compile "UPDATE t SET note = 'somewhere,  order by (AND' WHERE id = 'x where y limit 5;'" =
      .ok (.updateMany "t" [("id", .doc [("$eq", .string y)])]
        [("$set", .doc [("note", .string x)])]) ∧
    compile (updateText t note x) = .ok (.updateMany "t" [] (setDocument note x)) ∧
    compile (selectText t id k y) = .ok (sortedFind t id k y) := by
  intro t note id k x y
  obtain ⟨updateWhere, update, select⟩ :=
    literal_is_data_iff t note id k x y (by decide +kernel) (by decide +kernel)
  have silentX : ¬Mentions [["where"]] x.toList := by
    rw [mentions_iff (by decide)]
    decide +kernel
  have silentY : ¬Mentions laterKeywords y.toList := by
    rw [mentions_iff (by decide)]
    decide +kernel
  have text : updateWhereText t note id x y =
      "UPDATE t SET note = 'somewhere,  order by (AND' WHERE id = 'x where y limit 5;'" := by
    decide +kernel
  have names : t.text = "t" ∧ id.text = "id" ∧ note.text = "note" := by decide +kernel
  have first := updateWhere.mpr silentX
  have second := update.mpr silentX
  rw [text, equals, setDocument, names.1, names.2.1, names.2.2] at first
  rw [names.1] at second
  exact ⟨first, second, select.mpr silentY⟩

/-- A WHERE inside a literal cuts it: the field gets half of the text as a reference, and the other
half becomes the condition. -/
theorem literal_is_data_fails :
    let sql := "UPDATE t SET note = 'see where it goes' WHERE id = '1'"
    compile sql = .ok (.updateMany "t" [("it goes' WHERE id = '1'", .bool true)]
      [("$set", .doc [("note", .string "$'see")])]) ∧
    compile sql ≠ .ok (.updateMany "t" [("id", .doc [("$eq", .string "1")])]
      [("$set", .doc [("note", .string "see where it goes")])]) := by
  intro sql
  have compiled : compile sql = .ok (.updateMany "t" [("it goes' WHERE id = '1'", .bool true)]
      [("$set", .doc [("note", .string "$'see")])]) := by cbv
  refine ⟨compiled, ?_⟩
  rw [compiled]
  simp

end SqlToMongo.Statement
