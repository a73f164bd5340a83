import SqlToMongo.Proofs.Condition.Surface
import SqlToMongo.Text.Split
import Mathlib.Data.List.Chain
import Mathlib.Data.List.Forall2
import Mathlib.Data.List.TakeWhile

/-!
# Lexing written conditions

A lexeme is read back as one token when the text after it cannot extend it. Blanks never extend a
lexeme, and in a written clause neither does the next lexeme: two words have a gap between them,
and two symbols or two quoted texts never stand side by side. So the tokens of a written clause are
its lexemes, one by one.

## Main result

`reads_lex_of_writes`: the tokens of a text of a clause read the lexemes of the clause.
-/

namespace SqlToMongo.Sql

open Text

/-! ### Single tokens -/

/-- A literal ends at its closing mark unless the mark is doubled. -/
theorem takeQuoted_closed {q : Char} {content rest : List Char} (closed : q ∉ content)
    (single : ∀ c ∈ rest.head?, c ≠ q) :
    takeQuoted q (content ++ q :: rest) = (content ++ [q], rest) := by
  induction content with
  | nil =>
    cases rest with
    | nil => rfl
    | cons d rest =>
      have different : d ≠ q := single d (by simp)
      simp [takeQuoted, different]
  | cons c content ih =>
    have different : c ≠ q := fun same => closed (by simp [same])
    have inner := ih fun member => closed (List.mem_cons_of_mem _ member)
    obtain ⟨d, tail, shape⟩ : ∃ d tail, content ++ q :: rest = d :: tail := by
      cases content <;> simp
    rw [List.cons_append, shape, takeQuoted, if_neg different, ← shape, inner]
    rfl

theorem isWordBreak_eq (c : Char) : isWordBreak c = !Surface.isWordChar c := by
  simp only [isWordBreak, Surface.isWordChar, isOperatorChar, isQuote, List.contains_cons,
    List.contains_nil, Bool.or_false, Bool.not_and, Bool.not_not, Bool.or_assoc]

theorem isWordBreak_of_isBlank {c : Char} (blank : isBlank c = true) : isWordBreak c = true := by
  simp [isWordBreak, blank]

/-- No blank starts or ends a lexeme. -/
theorem isBlank_ne_special {c : Char} (blank : isBlank c = true) :
    isOperatorChar c = false ∧ isQuote c = false := by
  have different (d : Char) (visible : isBlank d = false) : (c == d) = false := by
    rw [beq_eq_false_iff_ne]
    rintro rfl
    simp [visible] at blank
  constructor
  · simp [isOperatorChar, different _ (show isBlank '=' = false by decide),
      different _ (show isBlank '!' = false by decide),
      different _ (show isBlank '<' = false by decide),
      different _ (show isBlank '>' = false by decide)]
  · simp [isQuote, different _ (show isBlank '\'' = false by decide),
      different _ (show isBlank '"' = false by decide)]

theorem isBlank_of_isQuote {q : Char} (quote : isQuote q = true) : isBlank q = false := by
  rw [Bool.eq_false_iff]
  intro blank
  simp [(isBlank_ne_special blank).2] at quote

namespace Token

theorem lex_of_next? {s after : List Char} {t : Token} (found : next? s = some (t, after)) :
    lex s = t :: lex after := by
  rw [lex]
  split
  next none => simp [found] at none
  next t' after' some =>
    rw [found, Option.some.injEq, Prod.mk.injEq] at some
    obtain ⟨rfl, rfl⟩ := some
    rfl

theorem lex_blanks {s : List Char} (blanks : ∀ c ∈ s, isBlank c = true) : lex s = [] := by
  have empty : s.dropWhile isBlank = [] := List.dropWhile_eq_nil_iff.mpr blanks
  rw [lex]
  split
  next => rfl
  next t after some => simp [next?, empty] at some

/-- One token after blanks, when it is known what the lexer reads there. -/
theorem lex_scan {lead text rest : List Char} {c : Char} {kind : TokenKind}
    (blanks : ∀ c ∈ lead, isBlank c = true) (visible : isBlank c = false)
    (read : scan c (text ++ rest) = (kind, c :: text, rest)) :
    lex (lead ++ c :: text ++ rest) = ⟨lead, kind, c :: text⟩ :: lex rest := by
  apply lex_of_next?
  rw [List.append_assoc, List.cons_append, next?, List.dropWhile_append_of_pos blanks,
    List.takeWhile_append_of_pos blanks]
  simp [visible, read]

end Token

/-! ### Keywords and words -/

theorem isAlpha_of_toLower {c : Char} (small : c.toLower.isLower = true) : c.isAlpha = true := by
  unfold Char.toLower at small
  split at small
  next capital =>
    have upper : c.isUpper = true := decide_eq_true capital
    exact (Bool.or_eq_true _ _).mpr (.inl upper)
  next => exact (Bool.or_eq_true _ _).mpr (.inr small)

theorem toNat_of_isAlpha {c : Char} (letter : c.isAlpha = true) :
    (65 ≤ c.toNat ∧ c.toNat ≤ 90) ∨ (97 ≤ c.toNat ∧ c.toNat ≤ 122) := by
  rcases (Bool.or_eq_true _ _).mp letter with upper | small
  · exact .inl (of_decide_eq_true upper)
  · obtain ⟨low, high⟩ := (Bool.and_eq_true _ _).mp small
    exact .inr ⟨of_decide_eq_true low, of_decide_eq_true high⟩

theorem isWordBreak_of_isAlpha {c : Char} (letter : c.isAlpha = true) : isWordBreak c = false := by
  have different (d : Char) (other : d.isAlpha = false) : (c == d) = false := by
    rw [beq_eq_false_iff_ne]
    rintro rfl
    simp [other] at letter
  have visible : isBlank c = false := by
    have range := toNat_of_isAlpha letter
    simp only [isBlank, Bool.or_eq_false_iff, Bool.and_eq_false_iff, decide_eq_false_iff_not,
      beq_eq_false_iff_ne]
    omega
  simp [isWordBreak, isOperatorChar, isQuote, visible, different]

/-- On ASCII letters the Unicode mapping is the ASCII one. -/
theorem lower_of_toLower {c : Char} (small : c.toLower.isLower = true) : lower c = c.toLower := by
  have range := toNat_of_isAlpha (isAlpha_of_toLower small)
  rw [lower, if_pos (by omega)]

namespace Surface

theorem Keyword.isLower_letters (k : Keyword) : ∀ c ∈ k.letters, c.isLower = true :=
  List.all_eq_true.mp (by cases k <;> decide)

theorem Keyword.ofWord_letters {text : List Char} {k : Keyword}
    (same : lowerAll text = k.letters) : TokenKind.ofWord text = k.kind := by
  rw [TokenKind.ofWord, same]
  cases k <;> rfl

theorem Word.ofWord_chars (w : Word) : TokenKind.ofWord w.chars = .word := by
  have different (k : Keyword) : String.ofList (lowerAll w.chars) ≠ String.ofList k.letters :=
    fun same => w.plain k (by cases k <;> decide) (String.ofList_injective same)
  unfold TokenKind.ofWord
  split
  next same => exact absurd same (different .and)
  next same => exact absurd same (different .or)
  next same => exact absurd same (different .not)
  next same => exact absurd same (different .isIn)
  next same => exact absurd same (different .like)
  next => rfl

theorem Word.isWordBreak_chars (w : Word) : ∀ c ∈ w.chars, isWordBreak c = false := by
  intro c member
  rw [isWordBreak_eq, List.all_eq_true.mp w.unbroken c member]
  rfl

/-- A keyword in any letter case is a run of letters that the lexer takes for the keyword. -/
theorem keyword_spelled {k : Keyword} {text : List Char}
    (spelled : text.map Char.toLower = k.letters) :
    (∀ c ∈ text, isWordBreak c = false) ∧ TokenKind.ofWord text = k.kind := by
  have small (c : Char) (member : c ∈ text) : c.toLower.isLower = true :=
    k.isLower_letters _ (spelled ▸ List.mem_map_of_mem member)
  -- The lexer folds case by Unicode, the spelling by ASCII; on letters they agree.
  have same : lowerAll text = k.letters := by
    rw [← spelled, lowerAll]
    exact List.map_congr_left fun c member => lower_of_toLower (small c member)
  exact ⟨fun c member => isWordBreak_of_isAlpha (isAlpha_of_toLower (small c member)),
    Keyword.ofWord_letters same⟩

/-! ### Where a lexeme ends -/

/-- Whether a character after a lexeme cannot extend it. -/
def Lexeme.endsBefore : Lexeme → Char → Bool
  | .word _, c => isWordBreak c
  | .keyword _, c => isWordBreak c
  | .symbol _, c => !isOperatorChar c
  | .quoted t, c => c != t.mark
  | _, _ => true

/-- A run of word characters is one token of the kind of its word. -/
theorem scan_word {c : Char} {text rest : List Char}
    (inside : ∀ d ∈ c :: text, isWordBreak d = false)
    (ends : ∀ d ∈ rest.head?, isWordBreak d = true) :
    Token.scan c (text ++ rest) = (TokenKind.ofWord (c :: text), c :: text, rest) := by
  have first : isWordBreak c = false := inside c (by simp)
  simp only [isWordBreak, Bool.or_eq_false_iff, beq_eq_false_iff_ne] at first
  obtain ⟨⟨⟨⟨⟨_, operator⟩, left⟩, right⟩, comma⟩, quote⟩ := first
  obtain ⟨taken, dropped⟩ := takeWhile_run (!isWordBreak ·) text rest
    (fun d member => by simp [inside d (List.mem_cons_of_mem _ member)])
    (fun d member => by simp [ends d member])
  simp [Token.scan, quote, left, right, comma, operator, taken, dropped]

theorem Symbol.isOperatorChar_chars (op : Symbol) : ∀ c ∈ op.chars, isOperatorChar c = true :=
  List.all_eq_true.mp (by cases op <;> decide)

/-- Operator characters are none of the other characters that break a word. -/
theorem isOperatorChar_ne {c : Char} (operator : isOperatorChar c = true) :
    isBlank c = false ∧ isQuote c = false ∧ c ≠ '(' ∧ c ≠ ')' ∧ c ≠ ',' := by
  simp only [isOperatorChar, Bool.or_eq_true, beq_iff_eq] at operator
  rcases operator with ((rfl | rfl) | rfl) | rfl <;> decide

/-- A run of operator characters is one token. -/
theorem scan_operator {c : Char} {text rest : List Char}
    (inside : ∀ d ∈ c :: text, isOperatorChar d = true)
    (ends : ∀ d ∈ rest.head?, isOperatorChar d = false) :
    Token.scan c (text ++ rest) = (.operator, c :: text, rest) := by
  have operator : isOperatorChar c = true := inside c (by simp)
  obtain ⟨_, quote, left, right, comma⟩ := isOperatorChar_ne operator
  obtain ⟨taken, dropped⟩ := takeWhile_run isOperatorChar text rest
    (fun d member => inside d (List.mem_cons_of_mem _ member)) ends
  simp [Token.scan, quote, left, right, comma, operator, taken, dropped]

/-- A lexeme that nothing extends is read back as one token. -/
theorem scan_spelled {l : Lexeme} {c : Char} {text rest : List Char}
    (spelled : Spells l (c :: text)) (ends : ∀ d ∈ rest.head?, l.endsBefore d = true) :
    Token.scan c (text ++ rest) = (l.kind, c :: text, rest) := by
  generalize whole : c :: text = chars at spelled
  cases spelled with
  | word w =>
    rw [scan_word (whole ▸ w.isWordBreak_chars) ends, whole, w.ofWord_chars]
    rfl
  | keyword _ spelled =>
    obtain ⟨inside, kind⟩ := keyword_spelled spelled
    rw [scan_word (whole ▸ inside) ends, whole, kind]
    rfl
  | symbol op =>
    rw [scan_operator (whole ▸ op.isOperatorChar_chars) (by simpa [Lexeme.endsBefore] using ends),
      whole]
    rfl
  | quoted t =>
    -- A mark right after the closing one would be read as a doubled mark inside the literal.
    obtain ⟨rfl, rfl⟩ := List.cons.inj whole
    have single : ∀ d ∈ rest.head?, d ≠ t.mark := by simpa [Lexeme.endsBefore] using ends
    simp [Token.scan, t.isMark, List.append_assoc, takeQuoted_closed t.closed single, Lexeme.kind]
  | leftParen => obtain ⟨rfl, rfl⟩ := List.cons.inj whole; rfl
  | rightParen => obtain ⟨rfl, rfl⟩ := List.cons.inj whole; rfl
  | comma => obtain ⟨rfl, rfl⟩ := List.cons.inj whole; rfl

/-- The first character of a lexeme tells what it is: word characters start words, operator
characters symbols, and marks quoted texts. -/
structure Starts (l : Lexeme) (c : Char) : Prop where
  visible : isBlank c = false
  breaks : l.isWordLike = false → isWordBreak c = true
  symbol : isOperatorChar c = true → l.kind = .operator
  quoted : isQuote c = true → l.kind = .string

theorem starts_word {l : Lexeme} {c : Char} (word : isWordBreak c = false)
    (wordLike : l.isWordLike = true) : Starts l c := by
  simp only [isWordBreak, Bool.or_eq_false_iff] at word
  obtain ⟨⟨⟨⟨⟨visible, operator⟩, _⟩, _⟩, _⟩, quote⟩ := word
  exact ⟨visible, by simp [wordLike], by simp [operator], by simp [quote]⟩

theorem starts_spelled {l : Lexeme} {text : List Char} (spelled : Spells l text) :
    ∃ c rest, text = c :: rest ∧ Starts l c := by
  cases spelled with
  | word w =>
    obtain ⟨c, rest, shape⟩ := List.exists_cons_of_ne_nil w.nonempty
    exact ⟨c, rest, shape, starts_word (w.isWordBreak_chars c (by simp [shape])) rfl⟩
  | @keyword k _ spelled =>
    have nonempty : text ≠ [] := by
      rintro rfl
      cases k <;> simp [Keyword.letters] at spelled
    obtain ⟨c, rest, shape⟩ := List.exists_cons_of_ne_nil nonempty
    exact ⟨c, rest, shape, starts_word ((keyword_spelled spelled).1 c (by simp [shape])) rfl⟩
  | symbol op =>
    have nonempty : op.chars ≠ [] := by cases op <;> decide
    obtain ⟨c, rest, shape⟩ := List.exists_cons_of_ne_nil nonempty
    have operator := op.isOperatorChar_chars c (by simp [shape])
    obtain ⟨visible, quote, _⟩ := isOperatorChar_ne operator
    exact ⟨c, rest, shape, visible, by simp [isWordBreak, operator], fun _ => rfl, by simp [quote]⟩
  | quoted t =>
    have mark := t.isMark
    refine ⟨t.mark, t.content ++ [t.mark], rfl, ?_⟩
    simp only [isQuote, Bool.or_eq_true, beq_iff_eq] at mark
    rcases mark with mark | mark <;> rw [mark] <;>
      exact ⟨by decide, fun _ => by decide, fun operator => absurd operator (by decide),
        fun _ => rfl⟩
  | leftParen => exact ⟨_, _, rfl, by decide, fun _ => by decide, by decide, by decide⟩
  | rightParen => exact ⟨_, _, rfl, by decide, fun _ => by decide, by decide, by decide⟩
  | comma => exact ⟨_, _, rfl, by decide, fun _ => by decide, by decide, by decide⟩

theorem endsBefore_blank (l : Lexeme) {c : Char} (blank : isBlank c = true) :
    l.endsBefore c = true := by
  obtain ⟨operator, quote⟩ := isBlank_ne_special blank
  cases l with
  | word | keyword => exact isWordBreak_of_isBlank blank
  | symbol => simp [Lexeme.endsBefore, operator]
  | quoted t =>
    have different : c ≠ t.mark := by
      rintro rfl
      simp [t.isMark] at quote
    simp [Lexeme.endsBefore, different]
  | leftParen | rightParen | comma => rfl

/-- Two lexemes that may stand side by side: two symbols would make one, and so would two quoted
texts with the same marks. -/
def Abuts (l next : Lexeme) : Prop :=
  ¬(l.kind = .operator ∧ next.kind = .operator) ∧ ¬(l.kind = .string ∧ next.kind = .string)

theorem endsBefore_next {l next : Lexeme} {c : Char} (starts : Starts next c) (abuts : Abuts l next)
    (apart : ¬(l.isWordLike = true ∧ next.isWordLike = true)) : l.endsBefore c = true := by
  cases l with
  | word | keyword => exact starts.breaks (by simpa [Lexeme.isWordLike] using apart)
  | symbol =>
    have operator : isOperatorChar c ≠ true := fun h => abuts.1 ⟨rfl, starts.symbol h⟩
    simpa [Lexeme.endsBefore] using operator
  | quoted t =>
    have different : c ≠ t.mark := by
      rintro rfl
      exact abuts.2 ⟨rfl, starts.quoted t.isMark⟩
    simp [Lexeme.endsBefore, different]
  | leftParen | rightParen | comma => rfl

/-! ### Written runs -/

/-- A token that is a text of the lexeme. -/
def Reads (t : Token) (l : Lexeme) : Prop :=
  t.kind = l.kind ∧ Spells l t.text

theorem endsBefore_written {l : Lexeme} {ls : List Lexeme} {gap tail : List Char}
    (blanks : Blanks gap) (apart : l.meetsWord ls = true → gap ≠ [])
    (chain : (l :: ls).IsChain Abuts) (written : Written ls tail) :
    ∀ d ∈ (gap ++ tail).head?, l.endsBefore d = true := by
  intro d first
  cases gap with
  | cons c gap =>
    obtain rfl : c = d := by simpa using first
    exact endsBefore_blank l (List.all_eq_true.mp blanks c (by simp))
  | nil =>
    cases written with
    | nil => simp at first
    | @cons next ls text tail gap spelled =>
      obtain ⟨c, rest, rfl, starts⟩ := starts_spelled spelled
      obtain rfl : c = d := by simpa using first
      refine endsBefore_next starts (List.isChain_cons_cons.mp chain).1 ?_
      rintro ⟨wordLike, nextWordLike⟩
      exact apart (by simp [Lexeme.meetsWord, wordLike, nextWordLike]) rfl

/-- The lexer gives the lexemes of a written run back, whatever blanks stand before it. -/
theorem reads_lex_of_written {ls : List Lexeme} {body : List Char} (written : Written ls body)
    (chain : ls.IsChain Abuts) (lead : List Char) (blanks : Blanks lead) :
    List.Forall₂ Reads (Token.lex (lead ++ body)) ls := by
  -- The gap after a lexeme becomes the lead of the next one.
  induction written generalizing lead with
  | nil =>
    rw [List.append_nil, Token.lex_blanks (List.all_eq_true.mp blanks)]
    exact .nil
  | @cons l ls text tail gap spelled gapBlanks apart written ih =>
    have ends := endsBefore_written gapBlanks apart chain written
    obtain ⟨c, rest, rfl, starts⟩ := starts_spelled spelled
    have read := Token.lex_scan (List.all_eq_true.mp blanks) starts.visible
      (scan_spelled spelled ends)
    rw [List.append_assoc, ← List.append_assoc lead, read]
    exact .cons ⟨rfl, spelled⟩ (ih chain.tail gap gapBlanks)

/-! ### Neighbours in a clause -/

/-- Around a keyword, a comma or a parenthesis anything may stand. -/
theorem chain_joined {front back : List Lexeme} {l : Lexeme} (operator : l.kind ≠ .operator)
    (string : l.kind ≠ .string) (left : front.IsChain Abuts) (right : back.IsChain Abuts) :
    (front ++ l :: back).IsChain Abuts := by
  have before (m : Lexeme) : Abuts m l := ⟨fun h => operator h.2, fun h => string h.2⟩
  have after (m : Lexeme) : Abuts l m := ⟨fun h => operator h.1, fun h => string h.1⟩
  refine List.isChain_append.mpr ⟨left, ?_, fun m _ n first => ?_⟩
  · cases back with
    | nil => exact .singleton l
    | cons m back => exact .cons_cons (after m) right
  · obtain rfl : l = n := by simpa using first
    exact before m

theorem chain_operands (values : List Operand) (front : List Lexeme)
    (chain : front.IsChain Abuts) :
    (front ++ values.flatMap fun v => [.comma, v.lexeme]).IsChain Abuts := by
  induction values generalizing front with
  | nil => simpa using chain
  | cons v values ih =>
    have extended := chain_joined (l := .comma) (by decide) (by decide) chain
      (.singleton v.lexeme)
    simpa using ih _ extended

theorem Test.chain (field : Word) (test : Test) :
    (.word field :: test.lexemes).IsChain Abuts := by
  cases test with
  | compare op value =>
    have between : Abuts (.symbol op) value.lexeme := by
      cases value <;> simp [Abuts, Lexeme.kind, Operand.lexeme]
    exact .cons_cons (by simp [Abuts, Lexeme.kind]) (.cons_cons between (.singleton _))
  | like pattern =>
    exact chain_joined (l := .keyword .like) (by decide) (by decide) (.singleton (.word field))
      (.singleton pattern.lexeme)
  | member test values =>
    have items : (listLexemes values).IsChain Abuts := by
      cases values with
      | nil => exact .nil
      | cons v values => exact chain_operands values [v.lexeme] (.singleton _)
    have opening : (Lexeme.word field :: membershipLexemes test).IsChain Abuts := by
      cases test <;> simp [membershipLexemes, Abuts, Lexeme.kind, Keyword.kind]
    have inner := chain_joined (l := .leftParen) (by decide) (by decide) opening items
    exact chain_joined (l := .rightParen) (by decide) (by decide) inner .nil

mutual

theorem Atom.chain : ∀ a : Atom, a.lexemes.IsChain Abuts
  | .word w => .singleton _
  | .test field test => test.chain field
  | .clause c => by
    have inner := chain_joined (l := .leftParen) (by decide) (by decide) .nil c.chain
    exact chain_joined (l := .rightParen) (by decide) (by decide) inner .nil

theorem Segment.chain : ∀ s : Segment, s.lexemes.IsChain Abuts
  | .atom a => a.chain
  | .or a rest => chain_joined (l := .keyword .or) (by decide) (by decide) a.chain rest.chain

theorem Clause.chain : ∀ c : Clause, c.lexemes.IsChain Abuts
  | .empty => .nil
  | .and s rest => rest.chain_followers s.lexemes s.chain

theorem Clause.chain_followers : ∀ (c : Clause) (front : List Lexeme),
    front.IsChain Abuts → (front ++ c.followers).IsChain Abuts
  | .empty, front, chain => by simpa [Clause.followers] using chain
  | .and s rest, front, chain => by
    have extended := chain_joined (l := .keyword .and) (by decide) (by decide) chain s.chain
    simpa [Clause.followers] using rest.chain_followers _ extended

end

/-- The tokens of a text of a clause are the lexemes of the clause. -/
theorem reads_lex_of_writes {c : Clause} {s : List Char} (writes : c.Writes s) :
    List.Forall₂ Reads (Token.lex s) c.lexemes := by
  obtain ⟨lead, body, blanks, written, rfl⟩ := writes
  exact reads_lex_of_written written c.chain lead blanks

end Surface

end SqlToMongo.Sql
