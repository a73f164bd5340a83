import SqlToMongo.Proofs.Statement.Literals

/-!
# Doubled quotes

A quote inside a literal is written twice. The lexer reads such a literal to its end, as one token.
What turns the token into a value only takes the two outer quotes off: the doubled ones stay
doubled, in what an INSERT or UPDATE stores as in what a condition asks for.

## Main result

`literal_decodes_iff`: a literal is read back as its text exactly when the text has no quote of its
kind.
-/

namespace SqlToMongo.Statement

open Mongo Sql Text

/-- The text with each of its quotes written twice. -/
def doubled (q : Char) : List Char → List Char
  | [] => []
  | c :: x => (if c = q then [q, q] else [c]) ++ doubled q x

/-- The literal that writes a text. -/
def encode (q : Char) (x : List Char) : List Char :=
  q :: doubled q x ++ [q]

theorem length_doubled (q : Char) (x : List Char) :
    (doubled q x).length = x.length + x.count q := by
  induction x with
  | nil => rfl
  | cons c x ih =>
    rw [doubled, List.length_append, ih, List.length_cons, List.count_cons]
    by_cases same : c = q
    · simp only [same, if_true, beq_self_eq_true, List.length_cons, List.length_nil]
      omega
    · simp only [same, if_false, beq_iff_eq, List.length_cons, List.length_nil]
      omega

theorem doubled_eq_self_iff {q : Char} {x : List Char} : doubled q x = x ↔ q ∉ x := by
  constructor
  · intro same
    have length := length_doubled q x
    rw [same] at length
    exact List.count_eq_zero.mp (by omega)
  · intro absent
    induction x with
    | nil => rfl
    | cons c x ih =>
      rw [List.mem_cons, not_or] at absent
      rw [doubled, if_neg (Ne.symm absent.1), ih absent.2, List.singleton_append]

theorem ofList_doubled_eq_iff {q : Char} {x : List Char} :
    String.ofList (doubled q x) = String.ofList x ↔ q ∉ x := by
  rw [String.ofList_inj, doubled_eq_self_iff]

/-- A literal is read past its doubled quotes, up to a single one. -/
theorem takeQuoted_doubled {q : Char} (x : List Char) {rest : List Char}
    (single : ∀ c ∈ rest.head?, c ≠ q) :
    takeQuoted q (doubled q x ++ q :: rest) = (doubled q x ++ [q], rest) := by
  induction x with
  | nil => exact takeQuoted_closed List.not_mem_nil single
  | cons c x ih =>
    rw [doubled]
    split
    next same => simp [takeQuoted, ih]
    next different =>
      -- The reader looks one character ahead, and there is always the closing quote.
      obtain ⟨d, tail, shape⟩ : ∃ d tail, doubled q x ++ q :: rest = d :: tail := by
        cases doubled q x <;> simp
      rw [List.append_assoc, List.singleton_append, shape, takeQuoted, if_neg different, ← shape, ih]
      simp

theorem takeQuoted_encode (q : Char) (x : List Char) :
    takeQuoted q (doubled q x ++ [q]) = (doubled q x ++ [q], []) :=
  takeQuoted_doubled x (by simp)

theorem lex_encode {q : Char} (quote : isQuote q = true) (x : List Char) :
    Token.lex (encode q x) = [⟨[], .string, encode q x⟩] := by
  have none : ∀ d ∈ ([] : List Char), isBlank d = true := by simp
  have read : Token.scan q (doubled q x ++ [q] ++ []) = (.string, q :: (doubled q x ++ [q]), []) := by
    simp [Token.scan, quote, takeQuoted_encode]
  have token := Token.lex_scan none (isBlank_of_isQuote quote) read
  have nothing : Token.lex [] = [] := Token.lex_blanks none
  rw [nothing, List.append_nil, List.nil_append] at token
  exact token

/-- A value keeps the doubled quotes. -/
theorem classify_encode {q : Char} (quote : isQuote q = true) (x : List Char) :
    Literal.classify (encode q x) = .string (String.ofList (doubled q x)) := by
  simp only [Literal.classify, encode, trim_quoted quote, quoted?_quoted quote]

/-- A condition keeps them too. -/
theorem filterOf_encode {q : Char} (quote : isQuote q = true) (f : Surface.Word) (x : List Char) :
    filterOf (f.chars ++ " = ".toList ++ encode q x) =
      [(f.text, .doc [("$eq", .string (String.ofList (doubled q x)))])] := by
  have tokens := lex_equal_literal f quote (takeQuoted_encode q x)
  have filter := filterOf_of_lex tokens ⟨rfl, .word f⟩ ⟨rfl, .symbol .eq⟩ rfl
  have content : Condition.valueOf [⟨[' '], .string, encode q x⟩] =
      String.ofList (doubled q x) := by
    have trimmed : trim (encode q x) = encode q x := trim_quoted quote (doubled q x)
    have unquoted : quoted? (encode q x) = some (doubled q x) := quoted?_quoted quote (doubled q x)
    simp [Condition.valueOf, Token.sourceText, Token.source, trimmed, unquote, unquoted]
  have text : f.chars ++ " = ".toList ++ encode q x =
      f.chars ++ ' ' :: '=' :: ' ' :: q :: (doubled q x ++ [q]) := by simp [encode]
  rw [text, filter, ← content]
  rfl

/-- The literal of any text is one token. It is the text as a value, and a condition asks for the
text, exactly when the text has no quote of the kind around it. -/
theorem literal_decodes_iff {q : Char} (quote : isQuote q = true) (x : List Char) :
    Token.lex (encode q x) = [⟨[], .string, encode q x⟩] ∧
    (Literal.classify (encode q x) = .string (String.ofList x) ↔ q ∉ x) ∧
    ∀ f : Surface.Word, filterOf (f.chars ++ " = ".toList ++ encode q x) =
      [(f.text, .doc [("$eq", .string (String.ofList x))])] ↔ q ∉ x := by
  refine ⟨lex_encode quote x, ?_, fun f => ?_⟩
  · rw [classify_encode quote, Literal.string.injEq, ofList_doubled_eq_iff]
  · rw [filterOf_encode quote]
    simp [ofList_doubled_eq_iff]

/-- The other kind of quote is no end of a literal. -/
theorem literal_decodes_iff_other :
    let x := "it's".toList
    isQuote '"' = true ∧ '"' ∉ x ∧
      Token.lex "\"it's\"".toList = [⟨[], .string, "\"it's\"".toList⟩] ∧
      Literal.classify "\"it's\"".toList = .string "it's" ∧
      filterOf "name = \"it's\"".toList = [("name", .doc [("$eq", .string "it's")])] := by
  intro x
  have quote : isQuote '"' = true := by decide
  have absent : '"' ∉ x := by decide +kernel
  obtain ⟨token, value, condition⟩ := literal_decodes_iff quote x
  exact ⟨quote, absent, token, value.mpr absent,
    (condition { chars := "name".toList }).mpr absent⟩

/-- The text `it's` is stored, and searched for, with two quotes. -/
theorem literal_decodes_fails :
    let literal := encode '\'' "it's".toList
    literal = "'it''s'".toList ∧
    Literal.classify literal = .string "it''s" ∧ Literal.classify literal ≠ .string "it's" ∧
    filterOf ("name = ".toList ++ literal) = [("name", .doc [("$eq", .string "it''s")])] ∧
    filterOf ("name = ".toList ++ literal) ≠ [("name", .doc [("$eq", .string "it's")])] := by
  intro literal
  have text : literal = "'it''s'".toList := by decide +kernel
  have value : Literal.classify literal = .string "it''s" := by cbv
  have condition : filterOf ("name = ".toList ++ literal) =
      [("name", .doc [("$eq", .string "it''s")])] := by cbv
  refine ⟨text, value, ?_, condition, ?_⟩
  · rw [value]
    simp
  · rw [condition]
    simp

end SqlToMongo.Statement
