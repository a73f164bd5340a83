import SqlToMongo.Proofs.Condition.Tiling
import SqlToMongo.Proofs.Converter.Relayout
import SqlToMongo.Proofs.Statement.Segments
import SqlToMongo.Text.Utf8

/-!
# The places of tokens

The tokens of a text and the blanks before them are the whole text, up to blanks at its end. So each
token has a place, which its offsets tell in bytes, and only blanks stand between the places.

What the lexer takes for a token depends on what follows the token only in so far as it ends there:
a run of characters of a class ends before another character, a literal behind its closing quote.
That is why a token is read in the same way when it stands alone, and why a word has a break before
it: the token in front of it ended.

## Main result

`lex_lossless`: tokens with their offsets hold everything but blanks, and each is read for itself.
-/

namespace SqlToMongo.Sql

open Text

/-! ### What the lexer takes for a token -/

/-- The kinds of runs of word characters. -/
def TokenKind.isWord : TokenKind → Bool
  | .word | .and | .or | .not | .isIn | .like => true
  | _ => false

/-- The text of a token, before a text that does not go on with it. -/
inductive Lexed : TokenKind → List Char → List Char → Prop where
  | string {q : Char} {body after : List Char} : isQuote q = true →
      takeQuoted q (body ++ after) = (body, after) → Lexed .string (q :: body) after
  | leftParen {after : List Char} : Lexed .leftParen ['('] after
  | rightParen {after : List Char} : Lexed .rightParen [')'] after
  | comma {after : List Char} : Lexed .comma [','] after
  | operator {c : Char} {text after : List Char} :
      (∀ d ∈ c :: text, isOperatorChar d = true) →
      (∀ d ∈ after.head?, isOperatorChar d = false) → Lexed .operator (c :: text) after
  | word {c : Char} {text after : List Char} :
      (∀ d ∈ c :: text, isWordBreak d = false) →
      (∀ d ∈ after.head?, isWordBreak d = true) → Lexed (.ofWord (c :: text)) (c :: text) after

/-- The rest of a text before the end of the run that its first character is in. -/
theorem run_of_takeWhile {p : Char → Bool} {c : Char} (first : p c = true) (rest : List Char) :
    (∀ d ∈ c :: rest.takeWhile p, p d = true) ∧ ∀ d ∈ (rest.dropWhile p).head?, p d = false := by
  refine ⟨?_, fun d ahead => not_of_mem_head?_dropWhile ahead⟩
  rw [List.forall_mem_cons]
  exact ⟨first, List.all_eq_true.mp List.all_takeWhile⟩

theorem lexed_scan {c : Char} (visible : isBlank c = false) (rest : List Char) :
    Lexed (Token.scan c rest).1 (Token.scan c rest).2.1 (Token.scan c rest).2.2 := by
  unfold Token.scan
  split
  next quote =>
    refine .string quote ?_
    rw [takeQuoted_append]
  next quote =>
    split
    next left => exact left ▸ .leftParen
    next left =>
      split
      next right => exact right ▸ .rightParen
      next right =>
        split
        next comma => exact comma ▸ .comma
        next comma =>
          split
          next operator =>
            obtain ⟨inside, ends⟩ := run_of_takeWhile operator rest
            exact .operator inside ends
          next operator =>
            have word : isWordBreak c = false := by
              simp_all [isWordBreak]
            obtain ⟨inside, ends⟩ :=
              @run_of_takeWhile (!isWordBreak ·) c (by simp [word]) rest
            exact .word (by simpa using inside) (by simpa using ends)

namespace Lexed

variable {kind : TokenKind} {text after : List Char}

theorem ne_nil (lexed : Lexed kind text after) : text ≠ [] := by
  cases lexed <;> exact List.cons_ne_nil _ _

/-- A token reads the same when nothing follows it. -/
theorem alone (lexed : Lexed kind text after) : Lexed kind text [] := by
  cases lexed with
  | @string q body _ quote taken =>
    have same : takeQuoted q (body ++ []) = (body, []) := by
      have followed := @takeQuoted_followed q (body ++ after) []
      rw [taken] at followed
      exact followed (fun _ => rfl) (by simp)
    exact .string quote same
  | leftParen => exact .leftParen
  | rightParen => exact .rightParen
  | comma => exact .comma
  | operator inside => exact .operator inside (by simp)
  | word inside => exact .word inside (by simp)

theorem exists_scan (lexed : Lexed kind text after) :
    ∃ c rest, text = c :: rest ∧ isBlank c = false ∧
      Token.scan c (rest ++ after) = (kind, text, after) := by
  cases lexed with
  | string quote taken =>
    exact ⟨_, _, rfl, isBlank_of_isQuote quote, by simp [Token.scan, quote, taken]⟩
  | leftParen => exact ⟨_, _, rfl, by decide, rfl⟩
  | rightParen => exact ⟨_, _, rfl, by decide, rfl⟩
  | comma => exact ⟨_, _, rfl, by decide, rfl⟩
  | operator inside ends =>
    exact ⟨_, _, rfl, (Surface.isOperatorChar_ne (inside _ (by simp))).1,
      Surface.scan_operator inside ends⟩
  | word inside ends =>
    exact ⟨_, _, rfl, isBlank_of_isWordBreak (inside _ (by simp)),
      Surface.scan_word inside ends⟩

/-- Behind a token no literal is open. -/
theorem outside (lexed : Lexed kind text after) : Outside text after := by
  have plain {s : List Char} (noQuote : ∀ c ∈ s, isQuote c = false) : Outside s after := by
    simpa using Outside.start.plain_append noQuote
  cases lexed with
  | @string q body _ quote taken =>
    have closed : takeQuoted q (body ++ [] ++ after) = (body, [] ++ after) := by simpa using taken
    simpa using Outside.literal quote closed .start
  | leftParen => exact plain (by decide)
  | rightParen => exact plain (by decide)
  | comma => exact plain (by decide)
  | operator inside =>
    exact plain fun d member => (Surface.isOperatorChar_ne (inside d member)).2.1
  | word inside => exact plain fun d member => (unsplit_of_isWordBreak (inside d member)).1

end Lexed

/-! ### Token lists -/

/-- The tokens of a text, with the blanks before each of them and blanks at the end. -/
inductive Lexes : List Char → List Token → Prop where
  | blanks {s : List Char} : (∀ c ∈ s, isBlank c = true) → Lexes s []
  | token {gap text after : List Char} {kind : TokenKind} {ts : List Token} :
      (∀ c ∈ gap, isBlank c = true) → Lexed kind text after → Lexes after ts →
      Lexes (gap ++ text ++ after) (⟨gap, kind, text⟩ :: ts)

theorem lexed_of_next? {s after : List Char} {t : Token} (found : Token.next? s = some (t, after)) :
    (∀ c ∈ t.gap, isBlank c = true) ∧ Lexed t.kind t.text after := by
  unfold Token.next? at found
  split at found
  next => simp at found
  next c rest start =>
    simp only [Option.some.injEq, Prod.mk.injEq] at found
    obtain ⟨rfl, rfl⟩ := found
    have visible : isBlank c = false := not_of_mem_head?_dropWhile (s := s) (by simp [start])
    exact ⟨List.all_eq_true.mp List.all_takeWhile, lexed_scan visible rest⟩

theorem lexes_lex (s : List Char) : Lexes s (Token.lex s) := by
  cases next : Token.next? s with
  | none =>
    have blanks := isBlank_of_next? next
    rw [Token.lex_blanks blanks]
    exact .blanks blanks
  | some found =>
    obtain ⟨t, after⟩ := found
    have : after.length < s.length := Token.length_of_next? next
    obtain ⟨blanks, lexed⟩ := lexed_of_next? next
    have whole := Lexes.token blanks lexed (lexes_lex after)
    rwa [Token.next?_append next, ← Token.lex_of_next? next] at whole
termination_by s.length

/-- The tokens of a text are the only ones that it has. -/
theorem Lexes.lex_eq {s : List Char} {ts : List Token} (lexes : Lexes s ts) : Token.lex s = ts := by
  induction lexes with
  | blanks blanks => exact Token.lex_blanks blanks
  | token blanks lexed _ ih =>
    obtain ⟨c, rest, rfl, visible, scanned⟩ := lexed.exists_scan
    rw [Token.lex_scan blanks visible scanned, ih]

/-! ### Neighbours -/

/-- A literal with something behind it ends with its quote. -/
theorem getLast?_takeQuoted {q : Char} {s : List Char} (more : (takeQuoted q s).2 ≠ []) :
    (takeQuoted q s).1.getLast? = some q := by
  fun_induction takeQuoted q s with
  | case1 => exact absurd rfl more
  | case2 => exact absurd rfl more
  | case3 rest body after taken ih =>
    rw [taken] at ih
    rw [List.getLast?_cons_cons, List.getLast?_cons, ih more]
    rfl
  | case4 => rfl
  | case5 c d rest different body after taken ih =>
    rw [taken] at ih
    rw [List.getLast?_cons, ih more]
    rfl

/-- Of the two characters at a place one breaks words. -/
def Parted (front back : List Char) : Prop :=
  ∀ c ∈ front.getLast?, ∀ d ∈ back.head?, isWordBreak c = true ∨ isWordBreak d = true

theorem Lexed.parted {kind : TokenKind} {text after : List Char} (lexed : Lexed kind text after)
    (front : List Char) : Parted (front ++ text) after := by
  intro c last d first
  rw [List.getLast?_append_of_ne_nil _ lexed.ne_nil] at last
  have member := List.mem_of_getLast? last
  cases lexed with
  | @string q body _ quote taken =>
    have closed := getLast?_takeQuoted (q := q) (s := body ++ after)
    have more : after ≠ [] := by
      rintro rfl
      simp at first
    rw [taken] at closed
    rw [List.getLast?_cons, closed more] at last
    obtain rfl : q = c := by simpa using last
    exact .inl (by simp [isWordBreak, quote])
  | leftParen => exact .inl (List.mem_singleton.mp member ▸ by decide)
  | rightParen => exact .inl (List.mem_singleton.mp member ▸ by decide)
  | comma => exact .inl (List.mem_singleton.mp member ▸ by decide)
  | operator inside => exact .inl (by simp [isWordBreak, inside c member])
  | word _ ends => exact .inr (ends d first)

theorem Outside.append {front mid after : List Char} (first : Outside front (mid ++ after))
    (second : Outside mid after) : Outside (front ++ mid) after := by
  generalize rest : mid ++ after = behind at first
  induction first with
  | start => exact second
  | plain quote _ ih => exact .plain quote (ih rest)
  | literal quote taken _ ih =>
    rw [← rest] at taken
    simpa using Outside.literal quote (by simpa using taken) (ih rest)

/-! ### Bytes -/

theorem utf8_append (s t : String) : utf8 (s ++ t) = utf8 s ++ utf8 t := by
  simp [utf8]

theorem byteLength_append (s t : List Char) :
    Token.byteLength (s ++ t) = Token.byteLength s + Token.byteLength t := by
  induction s with
  | nil => simp [Token.byteLength]
  | cons c s ih =>
    simp only [Token.byteLength, List.cons_append, List.foldr_cons] at ih ⊢
    omega

theorem byteLength_cons_pos (c : Char) (s : List Char) : 0 < Token.byteLength (c :: s) :=
  Nat.lt_of_lt_of_le c.utf8Size_pos (Nat.le_add_right _ _)

theorem length_utf8 (s : List Char) : (utf8 (String.ofList s)).length = Token.byteLength s := by
  induction s with
  | nil => rfl
  | cons c s ih =>
    rw [← List.singleton_append, String.ofList_append, utf8_append, List.length_append, ih]
    simp [utf8, Token.byteLength, List.utf8Encode]

/-! ### Places -/

/-- A token between two texts: it is of its kind and ends before the second, no literal is open
before it, and if it is a word it is the whole run of word characters. -/
structure Token.Fits (t : Token) (front back : List Char) : Prop where
  lexed : Lexed t.kind t.text back
  outside : Outside front (t.text ++ back)
  maximal : t.kind.isWord = true → (∀ c ∈ front.getLast?, isWordBreak c = true) ∧
    (∀ c ∈ t.text, isWordBreak c = false) ∧ ∀ c ∈ back.head?, isWordBreak c = true

/-- The token stands in the text between two offsets in bytes. -/
inductive Token.StandsAt (s : List Char) (t : Token) : Nat × Nat → Prop where
  | intro {front back : List Char} : s = front ++ t.text ++ back → t.Fits front back →
      StandsAt s t (byteLength front, byteLength front + byteLength t.text)

theorem Token.StandsAt.ne_nil {s : List Char} {t : Token} {span : Nat × Nat}
    (stands : t.StandsAt s span) : t.text ≠ [] := by
  cases stands with
  | intro _ fits => exact fits.lexed.ne_nil

/-- The bytes of a token in a text are those of its own text. -/
theorem Token.StandsAt.extract_eq {s : List Char} {t : Token} {span : Nat × Nat}
    (stands : t.StandsAt s span) :
    (utf8 (String.ofList s)).extract span.1 span.2 = utf8 (String.ofList t.text) := by
  cases stands with
  | intro whole =>
    subst whole
    simp only [String.ofList_append, utf8_append, List.extract_eq_take_drop, ← length_utf8]
    simp

theorem isChain_spans (start : Nat) (ts : List Token) :
    (Token.spans start ts).IsChain fun first second => first.2 ≤ second.1 := by
  induction ts generalizing start with
  | nil => exact .nil
  | cons t ts ih =>
    cases ts with
    | nil => exact .singleton _
    | cons u ts => exact .cons_cons (Nat.le_add_right _ _) (ih _)

/-- A token fits behind the blanks that are read with it. -/
theorem Lexed.fits {passed gap text after : List Char} {kind : TokenKind}
    (lexed : Lexed kind text after) (blanks : ∀ c ∈ gap, isBlank c = true)
    (outside : Outside passed (gap ++ text ++ after))
    (parted : Parted passed (gap ++ text ++ after)) :
    Token.Fits ⟨gap, kind, text⟩ (passed ++ gap) after := by
  refine ⟨lexed, ?_, fun isWord => ?_⟩
  · have noQuote : ∀ c ∈ gap, isQuote c = false := fun c member =>
      (isBlank_ne_special (blanks c member)).2
    have inGap : Outside gap (text ++ after) := by
      simpa using Outside.start.plain_append noQuote
    rw [List.append_assoc] at outside
    exact outside.append inGap
  · cases lexed with
    | @word c rest _ inside ends =>
      refine ⟨fun d last => ?_, inside, ends⟩
      rcases List.eq_nil_or_concat gap with rfl | ⟨lead, e, rfl⟩
      · -- Without blanks before it, the word starts where the token before it ended.
        have first := inside c (by simp)
        simpa [first] using parted d (by simpa using last) c (by simp)
      · obtain rfl : e = d := by simpa using last
        exact isWordBreak_of_isBlank (blanks e (by simp))
    | _ => simp [TokenKind.isWord] at isWord

/-- A character of two texts is in the first or in the second. -/
theorem cons_of_append_eq {front back s t : List Char} {c : Char}
    (same : s ++ t = front ++ c :: back) :
    (∃ tail, s = front ++ c :: tail) ∨ ∃ lead, front = s ++ lead ∧ t = lead ++ c :: back := by
  rcases List.append_eq_append_iff.mp same with ⟨lead, first, rest⟩ | ⟨tail, first, rest⟩
  · exact .inr ⟨lead, first, rest⟩
  · cases tail with
    | nil => exact .inr ⟨[], by simpa using first.symm, by simpa using rest.symm⟩
    | cons d tail =>
      obtain ⟨rfl, _⟩ := List.cons.inj rest
      exact .inl ⟨tail, first⟩

namespace Lexes

variable {s : List Char} {ts : List Token}

/-- The tokens behind a part of a text that ends with a token stand where their offsets say. -/
theorem standsAt (lexes : Lexes s ts) {passed : List Char} (outside : Outside passed s)
    (parted : Parted passed s) :
    List.Forall₂ (Token.StandsAt (passed ++ s)) ts
      (Token.spans (Token.byteLength passed) ts) := by
  induction lexes generalizing passed with
  | blanks => exact .nil
  | @token gap text after kind ts blanks lexed _ ih =>
    have fits := lexed.fits blanks outside parted
    have rest := ih (fits.outside.append lexed.outside) (lexed.parted (passed ++ gap))
    have whole : passed ++ (gap ++ text ++ after) = passed ++ gap ++ text ++ after := by simp
    rw [← whole, byteLength_append, byteLength_append] at rest
    have here := Token.StandsAt.intro whole fits
    rw [byteLength_append] at here
    exact .cons here rest

/-- What no token covers is blank. -/
theorem isBlank_of_uncovered (lexes : Lexes s ts) (start : Nat) {front back : List Char} {c : Char}
    (place : s = front ++ c :: back)
    (uncovered : ∀ span ∈ Token.spans start ts, ¬(span.1 ≤ start + Token.byteLength front ∧
      start + Token.byteLength front < span.2)) : isBlank c = true := by
  induction lexes generalizing start front with
  | blanks blanks => exact blanks c (by simp [place])
  | @token gap text after kind ts blanks lexed _ ih =>
    rw [Token.spans, List.forall_mem_cons] at uncovered
    obtain ⟨here, later⟩ := uncovered
    rw [List.append_assoc] at place
    rcases cons_of_append_eq place with ⟨tail, rfl⟩ | ⟨front, rfl, behind⟩
    · exact blanks c (by simp)
    · rcases cons_of_append_eq behind with ⟨tail, rfl⟩ | ⟨front, rfl, beyond⟩
      · -- The character is in the token, so its offset is between those of the token.
        have inside := byteLength_cons_pos c tail
        simp only [byteLength_append] at here
        omega
      · refine ih (start + Token.byteLength gap + Token.byteLength text) beyond ?_
        intro span member
        simpa [byteLength_append, Nat.add_assoc] using later span member

theorem isBlank_gap (lexes : Lexes s ts) : ∀ t ∈ ts, ∀ c ∈ t.gap, isBlank c = true := by
  induction lexes with
  | blanks => simp
  | token blanks _ _ ih => exact List.forall_mem_cons.mpr ⟨blanks, ih⟩

/-- A token is read again from its own text. -/
theorem lex_text (lexes : Lexes s ts) : ∀ t ∈ ts, Token.lex t.text = [{ t with gap := [] }] := by
  induction lexes with
  | blanks => simp
  | @token _ text _ kind _ _ lexed _ ih =>
    have alone : Lexes ([] ++ text ++ []) [⟨[], kind, text⟩] :=
      .token (by simp) lexed.alone (.blanks (by simp))
    rw [List.nil_append, List.append_nil] at alone
    exact List.forall_mem_cons.mpr ⟨alone.lex_eq, ih⟩

end Lexes

/-- Whatever the text, blanks and tokens are all of it. Every token is the part of the text between
its offsets, and the next one starts behind it; what no token covers is blank. No token starts
inside a literal, and words are whole runs of word characters. Each token is read for itself: its
own text has no other. -/
theorem lex_lossless (s : List Char) :
    (∃ trail, (∀ c ∈ trail, isBlank c = true) ∧
      s = (Token.lex s).flatMap (fun t => t.gap ++ t.text) ++ trail) ∧
    (∀ t ∈ Token.lex s, ∀ c ∈ t.gap, isBlank c = true) ∧
    List.Forall₂ (fun t span => t.text ≠ [] ∧ t.StandsAt s span ∧
      (utf8 (String.ofList s)).extract span.1 span.2 = utf8 (String.ofList t.text))
      (Token.lex s) (Token.spans 0 (Token.lex s)) ∧
    (Token.spans 0 (Token.lex s)).IsChain (fun first second => first.2 ≤ second.1) ∧
    (∀ front c back, s = front ++ c :: back →
      (∀ span ∈ Token.spans 0 (Token.lex s),
        ¬(span.1 ≤ Token.byteLength front ∧ Token.byteLength front < span.2)) →
      isBlank c = true) ∧
    ∀ t ∈ Token.lex s, Token.lex t.text = [{ t with gap := [] }] ∧
      Token.spans 0 (Token.lex t.text) = [(0, Token.byteLength t.text)] := by
  have lexes := lexes_lex s
  have stands : List.Forall₂ (Token.StandsAt s) (Token.lex s) (Token.spans 0 (Token.lex s)) :=
    lexes.standsAt .start (by simp [Parted])
  refine ⟨exists_lex_append s, lexes.isBlank_gap, ?_, isChain_spans 0 _, ?_, fun t member => ?_⟩
  · exact stands.imp fun t span here => ⟨here.ne_nil, here, here.extract_eq⟩
  · intro front c back place uncovered
    exact lexes.isBlank_of_uncovered 0 place (by simpa using uncovered)
  · have alone := lexes.lex_text t member
    exact ⟨alone, by simp [alone, Token.spans, Token.byteLength]⟩

example :
    let ts := Token.lex "é>='it''s'x\u00a0nOt iN(\"ü".toList
    ts.map (·.kind) = [.word, .operator, .string, .word, .not, .isIn, .leftParen, .string] ∧
    Token.spans 0 ts =
      [(0, 2), (2, 4), (4, 11), (11, 12), (14, 17), (18, 20), (20, 21), (21, 24)] := by cbv

end SqlToMongo.Sql
