import SqlToMongo.Proofs.Condition.Leaves

/-!
# Reading written conditions

Atoms are solid for AND and OR, and segments for AND. So the reader cuts a written clause exactly
where the grammar has its connectives, and reading goes by induction over the tree.

## Main result

`parse_of_writes`: every text of a clause is read as the condition the clause stands for.
-/

namespace SqlToMongo.Sql.Surface

open Mongo

/-! ### Trees -/

/-- No connective stands in a test of a field. -/
theorem Test.solid (w : Word) (test : Test) {sep : TokenKind}
    (connective : sep = .and ∨ sep = .or) :
    Solid sep ((Lexeme.word w :: test.lexemes).map Lexeme.kind) := by
  cases test with
  | compare op v =>
    apply solid_of_plain
    rcases connective with rfl | rfl <;> cases v <;>
      simp [Test.lexemes, Operand.lexeme, Lexeme.kind]
  | like v =>
    apply solid_of_plain
    rcases connective with rfl | rfl <;> cases v <;>
      simp [Test.lexemes, Operand.lexeme, Lexeme.kind, Keyword.kind]
  | member test values =>
    have front : Solid sep ((Lexeme.word w :: membershipLexemes test).map Lexeme.kind) := by
      apply solid_of_plain
      rcases connective with rfl | rfl <;> cases test <;>
        simp [membershipLexemes, Lexeme.kind, Keyword.kind]
    simpa [Test.lexemes, Lexeme.kind] using front.append (.nested (balanced_listLexemes values))

mutual

theorem Atom.solid {sep : TokenKind} (connective : sep = .and ∨ sep = .or) :
    ∀ a : Atom, Solid sep (a.lexemes.map Lexeme.kind)
  | .word w => by
    apply solid_of_plain
    rcases connective with rfl | rfl <;> simp [Atom.lexemes, Lexeme.kind]
  | .test field test => test.solid field connective
  | .clause c => by
    rw [Atom.lexemes, List.map_append]
    exact .nested c.balanced

theorem Segment.solid : ∀ s : Segment, Solid .and (s.lexemes.map Lexeme.kind)
  | .atom a => a.solid (.inl rfl)
  | .or a rest => by
    have connective : Solid .and [TokenKind.or] := .plain (by decide) (by decide) (by decide)
    have joined := (a.solid (.inl rfl)).append (connective.append rest.solid)
    simpa [Segment.lexemes, Lexeme.kind, Keyword.kind] using joined

theorem Clause.balanced : ∀ c : Clause, Balanced (c.lexemes.map Lexeme.kind)
  | .empty => .nil
  | .and s rest => by
    rw [Clause.lexemes, List.map_append]
    exact s.solid.balanced.append rest.balanced_followers

theorem Clause.balanced_followers : ∀ c : Clause, Balanced (c.followers.map Lexeme.kind)
  | .empty => .nil
  | .and s rest => by
    have connective : Balanced [TokenKind.and] := .plain (by decide) (by decide)
    have joined := connective.append (s.solid.balanced.append rest.balanced_followers)
    simpa [Clause.followers, Lexeme.kind, Keyword.kind] using joined

end

theorem Atom.lexemes_ne_nil (a : Atom) : a.lexemes ≠ [] := by
  cases a <;> simp [Atom.lexemes]

theorem Segment.lexemes_ne_nil (s : Segment) : s.lexemes ≠ [] := by
  cases s <;> simp [Segment.lexemes, Atom.lexemes_ne_nil]

theorem ne_nil_of_reads {ts : List Token} {ls : List Lexeme} (reads : List.Forall₂ Reads ts ls)
    (nonempty : ls ≠ []) : ts ≠ [] := by
  rintro rfl
  exact nonempty (List.forall₂_nil_left_iff.mp reads)

theorem joinAlternatives_alternatives (s : Segment) :
    Condition.joinAlternatives s.alternatives = [s.condition] := by
  cases s with
  | atom a => rfl
  | or a rest => cases rest <;> rfl

mutual

/-- An atom is read as the condition it stands for. -/
theorem Atom.atom_reads : ∀ (a : Atom) {ts : List Token},
    List.Forall₂ Reads ts a.lexemes → Condition.atom ts = a.condition
  | .word w, ts, reads => by
    rcases reads with _ | ⟨word, _ | _⟩
    rw [Condition.atom, Token.enclosed?_eq_none (by simp [word.1, Lexeme.kind]), Atom.condition]
    exact leaf_word word
  | .test field test, ts, reads => by
    obtain ⟨t, rest, word, asked, rfl⟩ := List.forall₂_cons_right_iff.mp reads
    rw [Condition.atom, Token.enclosed?_eq_none (by simp [word.1, Lexeme.kind]), Atom.condition]
    exact leaf_test (.cons word asked)
  | .clause c, ts, reads => by
    obtain ⟨front, last, rfl, opened, closing⟩ := reads_append reads
    rcases closing with _ | ⟨right, _ | _⟩
    obtain ⟨l, inner, left, inside, rfl⟩ := List.forall₂_cons_right_iff.mp opened
    have balanced : Balanced (inner.map Token.kind) := kinds_of_reads inside ▸ c.balanced
    rw [Condition.atom, Token.enclosed?_nested left.1 right.1 balanced, Atom.condition]
    exact congrArg Condition.all (c.termsOf_reads inside)

/-- A segment is cut at its ORs. -/
theorem Segment.parts_reads : ∀ (s : Segment) {ts : List Token},
    List.Forall₂ Reads ts s.lexemes → (Token.parts .or ts).map Condition.atom = s.alternatives
  | .atom a, ts, reads => by
    have solid : Solid .or (ts.map Token.kind) := kinds_of_reads reads ▸ a.solid (.inr rfl)
    rw [Token.parts_solid (by decide) solid (ne_nil_of_reads reads a.lexemes_ne_nil)]
    simp [Segment.alternatives, a.atom_reads reads]
  | .or a rest, ts, reads => by
    obtain ⟨front, back, rfl, first, following⟩ := reads_append reads
    obtain ⟨t, others, connective, remaining, rfl⟩ := List.forall₂_cons_right_iff.mp following
    have solid : Solid .or (front.map Token.kind) := kinds_of_reads first ▸ a.solid (.inr rfl)
    rw [Token.parts_joined (by decide) solid (ne_nil_of_reads first a.lexemes_ne_nil) connective.1,
      List.map_cons, a.atom_reads first, rest.parts_reads remaining, Segment.alternatives]

/-- A clause is cut at its ANDs. -/
theorem Clause.termsOf_reads : ∀ (c : Clause) {ts : List Token},
    List.Forall₂ Reads ts c.lexemes → Condition.termsOf ts = c.conditions
  | .empty, ts, reads => by
    obtain rfl := List.forall₂_nil_right_iff.mp reads
    rw [Condition.termsOf_eq]
    rfl
  | .and s rest, ts, reads => by
    obtain ⟨front, back, rfl, first, following⟩ := reads_append reads
    have solid : Solid .and (front.map Token.kind) := kinds_of_reads first ▸ s.solid
    have nonempty := ne_nil_of_reads first s.lexemes_ne_nil
    have segment : Condition.joinAlternatives ((Token.parts .or front).map Condition.atom) =
        [s.condition] := by
      rw [s.parts_reads first, joinAlternatives_alternatives]
    -- What follows is nothing, or an AND and the clause of the other segments.
    cases rest with
    | empty =>
      obtain rfl := List.forall₂_nil_right_iff.mp following
      rw [Condition.termsOf_eq, List.append_nil, Token.parts_solid (by decide) solid nonempty]
      simp [segment, Clause.conditions]
    | and next rest =>
      obtain ⟨t, others, connective, remaining, rfl⟩ := List.forall₂_cons_right_iff.mp following
      rw [Condition.termsOf_eq, Token.parts_joined (by decide) solid nonempty connective.1,
        List.flatMap_cons, ← Condition.termsOf_eq, segment,
        (Clause.and next rest).termsOf_reads remaining]
      rfl

end

/-- Every text of a clause is read as the condition that the clause stands for. -/
theorem parse_of_writes (c : Clause) (s : List Char) (writes : c.Writes s) :
    Condition.parse s = .all c.conditions :=
  congrArg Condition.all (c.termsOf_reads (reads_lex_of_writes writes))

/-- The text has connectives and a parenthesis between marks, and no blank where none is needed. -/
theorem parse_of_writes_price :
    let price : Test := .compare .gte (.word { chars := ['1', '0'] })
    let name : Test := .like (.quoted { mark := '\'', content := "a OR b%".toList })
    let id : Test := .member .notIn
      [.word { chars := ['7'] }, .quoted { mark := '"', content := "x)".toList }]
    let either : Segment :=
      .or (.test { chars := "name".toList } name) (.atom (.test { chars := "id".toList } id))
    let c : Clause := .and (.atom (.test { chars := "price".toList } price))
      (.and (.atom (.clause (.and either .empty))) .empty)
    let s := "price>=10 aNd(name LIKE'a OR b%'oR id nOT IN( 7,\"x)\"))".toList
    c.Writes s ∧ Condition.parse s = .all
      [.compare "price" .gte "10",
       .all [.any [.compare "name" .regex "^a OR b.*$", .member "id" .notIn ["7", "x)"]]]] := by
  intro price name id either c s
  have writes : c.Writes s :=
    ⟨[], s, by decide,
      .cons [] (.word _) (by decide) (by decide) <|
      .cons [] (.symbol _) (by decide) (by decide) <|
      .cons [' '] (.word _) (by decide) (by decide) <|
      .cons [] (.keyword "aNd".toList (by decide)) (by decide) (by decide) <|
      .cons [] .leftParen (by decide) (by decide) <|
      .cons [' '] (.word _) (by decide) (by decide) <|
      .cons [] (.keyword "LIKE".toList (by decide)) (by decide) (by decide) <|
      .cons [] (.quoted _) (by decide) (by decide) <|
      .cons [' '] (.keyword "oR".toList (by decide)) (by decide) (by decide) <|
      .cons [' '] (.word _) (by decide) (by decide) <|
      .cons [' '] (.keyword "nOT".toList (by decide)) (by decide) (by decide) <|
      .cons [] (.keyword "IN".toList (by decide)) (by decide) (by decide) <|
      .cons [' '] .leftParen (by decide) (by decide) <|
      .cons [] (.word _) (by decide) (by decide) <|
      .cons [] .comma (by decide) (by decide) <|
      .cons [] (.quoted _) (by decide) (by decide) <|
      .cons [] .rightParen (by decide) (by decide) <|
      .cons [] .rightParen (by decide) (by decide) .nil, rfl⟩
  exact ⟨writes, parse_of_writes c s writes⟩

end SqlToMongo.Sql.Surface
