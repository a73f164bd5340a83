import Mathlib.Data.List.Infix
import SqlToMongo.Proofs.Statement.Conditions
import SqlToMongo.Proofs.Statement.Select

/-!
# Keywords inside a text

The readers of statements look for keywords between gaps wherever they stand, also inside a literal.
A text *mentions* keywords when they stand in it like that. A reader that *heeds* keywords stops
before the closing quote of a literal exactly when the content of the literal mentions them.

## Main result

`Heeds.cut_literal`: where a statement is cut, for a literal with and without such a mention.
-/

namespace SqlToMongo.Sql

open Text

/-! ### Mentions -/

/-- Somewhere in the text one of the runs of keywords stands between gaps. -/
def Mentions (openings : List (List String)) (s : List Char) : Prop :=
  ∃ ks ∈ openings, ∃ pre o rest, s = pre ++ o ++ rest ∧ Opening ks o

theorem Opening.isSome_keywords? {ks : List String} {o : List Char} (opening : Opening ks o)
    (lettered : ∀ k ∈ ks, isLettered k = true) (rest : List Char) :
    (keywords? ks (o ++ rest)).isSome = true := by
  induction opening with
  | gap gap =>
    obtain ⟨c, g, rfl⟩ := List.exists_cons_of_ne_nil gap.1
    simp [keywords?, gap?, gap.2 c (by simp)]
  | @keyword k ks g word tail gap spelled _ ih =>
    have found : gap? (g ++ (word ++ (tail ++ rest))) = some (word ++ (tail ++ rest)) :=
      gap?_eq_some_iff.mpr ⟨g, gap, rfl, spelled.noGapAhead (lettered k (by simp)) _⟩
    have read : keyword? k.toList (word ++ (tail ++ rest)) = some (tail ++ rest) :=
      keyword?_eq_some_iff.mpr ⟨word, spelled, rfl⟩
    have inner := ih fun l member => lettered l (List.mem_cons_of_mem _ member)
    simpa [keywords?, found, read] using inner

/-- Mentions are found by reading at every place. -/
theorem mentions_iff {openings : List (List String)}
    (lettered : ∀ ks ∈ openings, ∀ k ∈ ks, isLettered k = true) {s : List Char} :
    Mentions openings s ↔
      ∃ ks ∈ openings, ∃ back ∈ s.tails, (keywords? ks back).isSome = true := by
  constructor
  · rintro ⟨ks, listed, pre, o, rest, rfl, opening⟩
    refine ⟨ks, listed, o ++ rest, ?_, opening.isSome_keywords? (lettered ks listed) rest⟩
    rw [List.mem_tails, List.append_assoc]
    exact List.suffix_append pre _
  · rintro ⟨ks, listed, back, suffix, found⟩
    obtain ⟨pre, rfl⟩ := (List.mem_tails ..).mp suffix
    obtain ⟨rest, read⟩ := Option.isSome_iff_exists.mp found
    obtain ⟨o, opening, rfl, _⟩ := (keywords?_eq_some_iff (lettered ks listed)).mp read
    exact ⟨ks, listed, pre, o, rest, by rw [List.append_assoc], opening⟩

/-- Keywords and gaps have no quotes. -/
theorem Opening.isQuote_eq_false {ks : List String} {o : List Char} (opening : Opening ks o)
    (lettered : ∀ k ∈ ks, isLettered k = true) : ∀ c ∈ o, isQuote c = false := by
  intro c member
  rw [Bool.eq_false_iff]
  intro quote
  simp only [isQuote, Bool.or_eq_true, beq_iff_eq] at quote
  have kind := opening.gap_or_word lettered member
  rcases quote with rfl | rfl <;> exact absurd kind (by decide)

/-- Keywords and gaps hold no mark of a list. -/
theorem Opening.unsplit {ks : List String} {o : List Char} (opening : Opening ks o)
    (lettered : ∀ k ∈ ks, isLettered k = true) :
    ∀ c ∈ o, isQuote c = false ∧ c ≠ ',' ∧ c ≠ '(' ∧ c ≠ ')' := by
  intro c member
  have kind := opening.gap_or_word lettered member
  refine ⟨opening.isQuote_eq_false lettered c member, ?_, ?_, ?_⟩ <;>
  · rintro rfl
    exact absurd kind (by decide)

/-- Keywords that are found in a text are found in a longer one, which goes on with something
visible. -/
theorem keywords?_append {ks : List String} (lettered : ∀ k ∈ ks, isLettered k = true)
    {s x rest : List Char} (found : keywords? ks s = some rest) (ahead : NoGapAhead x) :
    keywords? ks (s ++ x) = some (rest ++ x) := by
  obtain ⟨o, opening, rfl, visible⟩ := (keywords?_eq_some_iff lettered).mp found
  refine (keywords?_eq_some_iff lettered).mpr ⟨o, opening, List.append_assoc .., ?_⟩
  intro c first
  cases rest with
  | nil => exact ahead c first
  | cons d rest => exact visible c first

/-- A text that is cut inside a keyword with its gaps, between a gap and something visible, is cut
before the word. -/
theorem Opening.isGap_of_cut {k : String} (lettered : isLettered k = true)
    {front back : List Char} (opening : Opening [k] (front ++ back))
    (gap : ∀ c ∈ front.getLast?, isGap c = true) (visible : ∃ c ∈ back.head?, isGap c = false) :
    ∀ c ∈ front, isGap c = true := by
  obtain ⟨d, first, visible⟩ := visible
  have inside := List.mem_of_head? first
  generalize whole : front ++ back = o at opening
  obtain ⟨g, word, tail, rfl, before, spelled, opening⟩ := opening.exists_cons
  have letters := spelled.isGap_eq_false lettered
  cases opening with
  | gap behind =>
    -- The cut is in the first gap, in the word or in the second gap.
    rcases List.append_eq_append_iff.mp whole with ⟨more, start, rfl⟩ | ⟨more, rfl, rest⟩
    · rcases List.append_eq_append_iff.mp start with ⟨part, rfl, rfl⟩ | ⟨more, rfl, rfl⟩
      · rcases List.eq_nil_or_concat part with rfl | ⟨part, last, rfl⟩
        · simpa using before.2
        · simp [letters last (by simp)] at gap
      · exact fun c member => before.2 c (List.mem_append_left _ member)
    · simp [behind.2 d (rest ▸ List.mem_append_right _ inside)] at visible

/-! ### Where a text is cut -/

variable {α : Type} {accept : List Char → Option α}

theorem cutBefore?_of_accept {s : List Char} {a : α} (found : accept s = some a) :
    cutBefore? accept s = some ([], a) :=
  cutBefore?_eq_some_iff.mpr ⟨s, rfl, found, fun pre back whole nonempty => by simp_all⟩

/-- The search goes on behind a part that is refused at every place. -/
theorem cutBefore?_append {front rest : List Char}
    (refused : ∀ pre back, front = pre ++ back → back ≠ [] → accept (back ++ rest) = none) :
    cutBefore? accept (front ++ rest) =
      (cutBefore? accept rest).map fun p => (front ++ p.1, p.2) := by
  induction front with
  | nil => simp
  | cons c front ih =>
    have here := refused [] (c :: front) rfl (by simp)
    have inner := ih fun pre back whole nonempty =>
      refused (c :: pre) back (by rw [whole, List.cons_append]) nonempty
    rw [List.cons_append] at here ⊢
    rw [cutBefore?, here, inner, Option.map_map]
    rfl

/-- A part that is accepted at some place is cut at that place or before. -/
theorem cutBefore?_inside {pre back rest : List Char} {a : α}
    (found : accept (back ++ rest) = some a) :
    ∃ front r, front <+: pre ++ back ∧
      cutBefore? accept (pre ++ back ++ rest) = some (front, r) := by
  induction pre with
  | nil => exact ⟨[], a, List.nil_prefix, cutBefore?_of_accept found⟩
  | cons c pre ih =>
    obtain ⟨front, r, isPrefix, cut⟩ := ih
    rw [List.cons_append, List.cons_append, cutBefore?]
    split
    next r' _ => exact ⟨[], r', List.nil_prefix, rfl⟩
    next =>
      exact ⟨c :: front, r, List.cons_prefix_cons.mpr ⟨rfl, isPrefix⟩,
        by simp only [cut, Option.map_some]⟩

theorem isSome_cutBefore? (atEnd : (accept []).isSome = true) (s : List Char) :
    (cutBefore? accept s).isSome = true := by
  induction s with
  | nil => simpa [cutBefore?] using atEnd
  | cons c s ih =>
    rw [cutBefore?]
    split <;> simp [ih]

/-! ### Readers that heed keywords -/

/-- Before a quote the reader accepts exactly where one of the runs of keywords opens the text. -/
structure Heeds (openings : List (List String)) (accept : List Char → Option α) : Prop where
  lettered : ∀ ks ∈ openings, ks ≠ [] ∧ ∀ k ∈ ks, isLettered k = true
  isSome_iff : ∀ s, '\'' ∈ s →
    ((accept s).isSome = true ↔ ∃ ks ∈ openings, (keywords? ks s).isSome = true)

theorem Heeds.optionalClause? {openings : List (List String)} (heeds : Heeds openings accept)
    (atEnd : (accept []).isSome = true) {ks : List String} (nonempty : ks ≠ [])
    (lettered : ∀ k ∈ ks, isLettered k = true) :
    Heeds (ks :: openings) (optionalClause? ks accept) where
  lettered := by
    intro ls listed
    rcases List.mem_cons.mp listed with rfl | listed
    · exact ⟨nonempty, lettered⟩
    · exact heeds.lettered ls listed
  isSome_iff := by
    intro s quote
    rw [List.exists_mem_cons_iff, ← heeds.isSome_iff s quote]
    unfold Sql.optionalClause?
    cases opened : keywords? ks s with
    | some body => simp [isSome_cutBefore? atEnd body]
    | none => simp

variable {openings : List (List String)}

theorem Heeds.eq_none (heeds : Heeds openings accept) {s : List Char} (quote : '\'' ∈ s)
    (closed : ∀ ks ∈ openings, keywords? ks s = none) : accept s = none := by
  rw [← Option.not_isSome_iff_eq_none, heeds.isSome_iff s quote]
  rintro ⟨ks, listed, opened⟩
  simp [closed ks listed] at opened

/-- The statement goes on behind a literal that mentions nothing, and is cut inside one that
does. -/
theorem Heeds.cut_literal (heeds : Heeds openings accept) (x rest : List Char) :
    (¬Mentions openings x → cutBefore? accept (x ++ '\'' :: rest) =
      (cutBefore? accept rest).map fun p => (x ++ '\'' :: p.1, p.2)) ∧
    (Mentions openings x →
      ∃ front r, front <+: x ∧ cutBefore? accept (x ++ '\'' :: rest) = some (front, r)) := by
  constructor
  · intro silent
    have cut : cutBefore? accept ((x ++ ['\'']) ++ rest) =
        (cutBefore? accept rest).map fun p => ((x ++ ['\'']) ++ p.1, p.2) := by
      apply cutBefore?_append
      intro pre back whole nonempty
      -- What is left of the literal ends in its quote, so an opening found here ends before it.
      obtain ⟨inner, rfl⟩ : ∃ inner, back = inner ++ ['\''] := by
        rcases List.eq_nil_or_concat back with rfl | ⟨inner, c, rfl⟩
        · exact absurd rfl nonempty
        · rw [List.concat_eq_append, ← List.append_assoc] at whole
          obtain ⟨_, same⟩ := List.append_inj' whole rfl
          exact ⟨inner, by rw [List.concat_eq_append, ← same]⟩
      rw [← List.append_assoc] at whole
      obtain ⟨rfl, _⟩ := List.append_inj' whole rfl
      apply heeds.eq_none (by simp)
      intro ks listed
      rw [Option.eq_none_iff_forall_ne_some]
      intro after found
      obtain ⟨_, lettered⟩ := heeds.lettered ks listed
      obtain ⟨o, opening, same, _⟩ := (keywords?_eq_some_iff lettered).mp found
      have plain := opening.isQuote_eq_false lettered
      rw [List.append_assoc, List.append_eq_append_iff] at same
      rcases same with ⟨more, rfl, same⟩ | ⟨more, rfl, _⟩
      · cases more with
        | nil => exact silent ⟨ks, listed, pre, inner, [], by simp, by simpa using opening⟩
        | cons d more =>
          obtain ⟨rfl, _⟩ := List.cons.inj same
          exact absurd (plain '\'' (by simp)) (by decide)
      · exact silent ⟨ks, listed, pre, o, more, by rw [List.append_assoc], opening⟩
    simpa [List.append_assoc] using cut
  · rintro ⟨ks, listed, pre, o, more, rfl, opening⟩
    obtain ⟨_, lettered⟩ := heeds.lettered ks listed
    have opened := opening.isSome_keywords? lettered (more ++ '\'' :: rest)
    rw [← List.append_assoc] at opened
    obtain ⟨a, found⟩ := Option.isSome_iff_exists.mp
      ((heeds.isSome_iff (o ++ more ++ '\'' :: rest) (by simp)).mpr ⟨ks, listed, opened⟩)
    rw [List.append_assoc pre]
    exact cutBefore?_inside found

end SqlToMongo.Sql

namespace SqlToMongo.Statement

open Sql Text

/-! ### The readers of clauses -/

theorem heeds_condition? : Heeds [["where"]] condition? where
  lettered := by decide
  isSome_iff := by
    intro s quote
    have nonempty : s ≠ [] := List.ne_nil_of_mem quote
    unfold condition?
    cases opened : keywords? ["where"] s <;> simp [opened, nonempty]

theorem quote_notMem_of_keywords? {ks : List String} (lettered : ∀ k ∈ ks, isLettered k = true)
    {s body : List Char} (opened : keywords? ks s = some body) (closed : '\'' ∉ body) :
    '\'' ∉ s := by
  obtain ⟨o, opening, rfl, _⟩ := (keywords?_eq_some_iff lettered).mp opened
  rw [List.mem_append, not_or]
  refine ⟨fun member => ?_, closed⟩
  exact absurd (opening.isQuote_eq_false lettered _ member) (by decide)

theorem quote_notMem_of_run? {s digits rest : List Char}
    (ran : run? Char.isDigit s = some (digits, rest)) (closed : '\'' ∉ rest) : '\'' ∉ s := by
  obtain ⟨rfl, _, inside, _⟩ := run?_eq_some_iff.mp ran
  rw [List.mem_append, not_or]
  exact ⟨fun member => absurd (inside _ member) (by decide), closed⟩

theorem quote_notMem_of_dropWhile {s : List Char} (closed : '\'' ∉ s.dropWhile isGap) :
    '\'' ∉ s := by
  rw [← List.takeWhile_append_dropWhile (p := isGap) (l := s), List.mem_append, not_or]
  refine ⟨fun member => ?_, closed⟩
  exact absurd (List.all_eq_true.mp List.all_takeWhile _ member) (by decide)

namespace Counts

theorem quote_notMem_of_offset? {s : List Char} {offset : Option (List Char)}
    (found : offset? s = some offset) : '\'' ∉ s := by
  unfold offset? at found
  split at found
  next body opened =>
    split at found
    next digits ran =>
      exact quote_notMem_of_keywords? (by decide) opened (quote_notMem_of_run? ran (by simp))
    next => cases found
  next =>
    split at found
    next empty => simp [List.isEmpty_iff.mp empty]
    next => cases found

theorem quote_notMem_of_skip? {s skip rest : List Char} (found : skip? s = some (skip, rest))
    (closed : '\'' ∉ rest) : '\'' ∉ s := by
  unfold skip? at found
  split at found
  next after comma =>
    apply quote_notMem_of_dropWhile
    rw [comma, List.mem_cons, not_or]
    exact ⟨by decide, quote_notMem_of_dropWhile (quote_notMem_of_run? found closed)⟩
  next => cases found

/-- Numbers and their keywords have no quotes. -/
theorem quote_notMem_of_read? {s : List Char} {counts : Counts} (found : read? s = some counts) :
    '\'' ∉ s := by
  unfold read? at found
  split at found
  next body opened =>
    simp only [Option.bind_eq_bind, Option.bind_eq_some_iff, Prod.exists] at found
    obtain ⟨limit, after, ran, found⟩ := found
    refine quote_notMem_of_keywords? (by decide) opened (quote_notMem_of_run? ran ?_)
    split at found
    next skip rest skipped =>
      obtain ⟨offset, last, _⟩ := Option.map_eq_some_iff.mp found
      exact quote_notMem_of_skip? skipped (quote_notMem_of_offset? last)
    next =>
      obtain ⟨offset, last, _⟩ := Option.map_eq_some_iff.mp found
      exact quote_notMem_of_offset? last
  next =>
    obtain ⟨offset, last, _⟩ := Option.map_eq_some_iff.mp found
    exact quote_notMem_of_offset? last

theorem heeds_read? : Heeds [] read? where
  lettered := by simp
  isSome_iff := by
    intro s quote
    simp only [List.not_mem_nil, false_and, exists_false, iff_false]
    intro found
    obtain ⟨counts, read⟩ := Option.isSome_iff_exists.mp found
    exact quote_notMem_of_read? read quote

end Counts

/-- The keywords that can follow a condition in a SELECT with a literal before them. -/
def laterKeywords : List (List String) :=
  [["group", "by"], ["having"], ["order", "by"]]

/-- The clauses after the condition of a SELECT. -/
def SelectClauses.later? : List Char → Option (List Char × List Char × List Char × Counts) :=
  optionalClause? ["group", "by"] <| optionalClause? ["having"] <|
    optionalClause? ["order", "by"] Counts.read?

theorem SelectClauses.heeds_later? : Heeds laterKeywords later? :=
  ((Counts.heeds_read?.optionalClause? rfl (by simp) (by decide)).optionalClause? rfl (by simp)
    (by decide)).optionalClause? rfl (by simp) (by decide)

end SqlToMongo.Statement
