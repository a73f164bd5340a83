import SqlToMongo.Proofs.Condition.Lexing
import SqlToMongo.Sql.Scan
import SqlToMongo.Text.Split

/-!
# Keywords between gaps

A statement is cut where keywords stand between gaps. This module says which texts that are, and
when a reader that waits for keywords passes over a text: it can only stop at a place where a gap
is followed by one of its words, so a text without these words, as a list of words between gaps,
holds no such place.

## Main results

`keywords?_eq_some_iff`, `cutBefore?_eq_some_iff`: what the two searches find.
`FreeText.cutBefore?`: a text without the words that a reader waits for is cut off whole.
-/

namespace SqlToMongo.Sql

open Text

/-! ### Texts of keywords -/

/-- White space between two parts of a statement: at least one character. -/
def Gap (g : List Char) : Prop :=
  g ≠ [] ∧ ∀ c ∈ g, isGap c = true

instance (g : List Char) : Decidable (Gap g) :=
  inferInstanceAs (Decidable (g ≠ [] ∧ ∀ c ∈ g, isGap c = true))

/-- The text is the keyword, its letters in any case. -/
def Spelled (k : String) (text : List Char) : Prop :=
  text.map fold = k.toList

instance (k : String) (text : List Char) : Decidable (Spelled k text) :=
  inferInstanceAs (Decidable (text.map fold = k.toList))

/-- The texts of keywords with a gap before each of them and one behind the last. -/
inductive Opening : List String → List Char → Prop where
  | gap {g : List Char} : Gap g → Opening [] g
  | keyword {k : String} {ks : List String} {g word tail : List Char} :
      Gap g → Spelled k word → Opening ks tail → Opening (k :: ks) (g ++ word ++ tail)

theorem Opening.exists_cons {k : String} {ks : List String} {o : List Char}
    (opening : Opening (k :: ks) o) :
    ∃ g word tail, o = g ++ word ++ tail ∧ Gap g ∧ Spelled k word ∧ Opening ks tail := by
  cases opening with
  | keyword gap spelled opening => exact ⟨_, _, _, rfl, gap, spelled, opening⟩

/-- A keyword has letters, and nothing else. -/
def isLettered (k : String) : Bool :=
  !k.toList.isEmpty && k.toList.all Char.isLower

/-- The next character, if there is one, is no gap. -/
def NoGapAhead (s : List Char) : Prop :=
  ∀ c ∈ s.head?, isGap c = false

theorem isBlank_of_isGap {c : Char} (gap : isGap c = true) : isBlank c = true :=
  isBlank_of_isLayout (isLayout_of_isGap gap)

theorem isGap_eq_false {c : Char} (visible : isBlank c = false) : isGap c = false := by
  rw [Bool.eq_false_iff]
  intro gap
  simp [isBlank_of_isGap gap] at visible

theorem isBlank_of_isWordBreak {c : Char} (word : isWordBreak c = false) : isBlank c = false := by
  rw [Bool.eq_false_iff]
  intro blank
  simp [isWordBreak_of_isBlank blank] at word

theorem isWordBreak_of_fold_isLower {c : Char} (small : (fold c).isLower = true) :
    isWordBreak c = false := by
  unfold fold at small
  split at small
  next long =>
    rw [eq_of_beq long]
    decide
  next =>
    split at small
    next kelvin =>
      rw [eq_of_beq kelvin]
      decide
    next => exact isWordBreak_of_isAlpha (isAlpha_of_toLower small)

/-- A keyword is part of a word in every spelling. -/
theorem Spelled.isWordBreak_eq_false {k : String} {word : List Char} (spelled : Spelled k word)
    (lettered : isLettered k = true) : ∀ c ∈ word, isWordBreak c = false := by
  intro c member
  simp only [isLettered, Bool.and_eq_true, List.all_eq_true] at lettered
  exact isWordBreak_of_fold_isLower (lettered.2 _ (spelled ▸ List.mem_map_of_mem member))

theorem Spelled.isGap_eq_false {k : String} {word : List Char} (spelled : Spelled k word)
    (lettered : isLettered k = true) : ∀ c ∈ word, isGap c = false :=
  fun c member => Sql.isGap_eq_false (isBlank_of_isWordBreak
    (spelled.isWordBreak_eq_false lettered c member))

theorem Spelled.ne_nil {k : String} {word : List Char} (spelled : Spelled k word)
    (lettered : isLettered k = true) : word ≠ [] := by
  rintro rfl
  simp only [isLettered, Bool.and_eq_true, Bool.not_eq_true', List.isEmpty_eq_false_iff] at lettered
  exact lettered.1 spelled.symm

theorem Spelled.unique {k l : String} {word : List Char} (first : Spelled k word)
    (second : Spelled l word) : k = l :=
  String.toList_injective (first.symm.trans second)

/-- A keyword that does not start with a gap leaves none ahead. -/
theorem Spelled.noGapAhead {k : String} {word : List Char} (spelled : Spelled k word)
    (lettered : isLettered k = true) (rest : List Char) : NoGapAhead (word ++ rest) := by
  intro c first
  rw [List.head?_append_of_ne_nil _ (spelled.ne_nil lettered)] at first
  exact spelled.isGap_eq_false lettered c (List.mem_of_head? first)

theorem Opening.head_isGap {ks : List String} {o : List Char} (opening : Opening ks o) :
    ∃ c rest, o = c :: rest ∧ isGap c = true := by
  cases opening with
  | gap gap =>
    obtain ⟨c, rest, rfl⟩ := List.exists_cons_of_ne_nil gap.1
    exact ⟨c, rest, rfl, gap.2 c (by simp)⟩
  | keyword gap =>
    obtain ⟨c, rest, rfl⟩ := List.exists_cons_of_ne_nil gap.1
    exact ⟨c, _, rfl, gap.2 c (by simp)⟩

/-- Gaps behind keywords belong to their last gap. -/
theorem Opening.append_gaps {ks : List String} {o gaps : List Char} (opening : Opening ks o)
    (isGaps : ∀ c ∈ gaps, isGap c = true) : Opening ks (o ++ gaps) := by
  induction opening with
  | gap gap => exact .gap ⟨by simp [gap.1], List.forall_mem_append.mpr ⟨gap.2, isGaps⟩⟩
  | keyword gap spelled _ ih => simpa using Opening.keyword gap spelled ih

/-- Gaps before keywords belong to their first gap. -/
theorem Opening.gaps_append {ks : List String} {o gaps : List Char} (opening : Opening ks o)
    (isGaps : ∀ c ∈ gaps, isGap c = true) : Opening ks (gaps ++ o) := by
  have joined {g : List Char} (gap : Gap g) : Gap (gaps ++ g) :=
    ⟨by simp [gap.1], List.forall_mem_append.mpr ⟨isGaps, gap.2⟩⟩
  cases opening with
  | gap gap => exact .gap (joined gap)
  | keyword gap spelled opening => simpa using Opening.keyword (joined gap) spelled opening

/-- Keywords with their gaps hold gaps and parts of words, and nothing else. -/
theorem Opening.gap_or_word {ks : List String} {o : List Char} (opening : Opening ks o)
    (lettered : ∀ k ∈ ks, isLettered k = true) {c : Char} (member : c ∈ o) :
    isGap c = true ∨ isWordBreak c = false := by
  induction opening with
  | gap gap => exact .inl (gap.2 c member)
  | @keyword k _ _ _ _ gap spelled _ ih =>
    rw [List.append_assoc, List.mem_append, List.mem_append] at member
    rcases member with member | member | member
    · exact .inl (gap.2 c member)
    · exact .inr (spelled.isWordBreak_eq_false (lettered k (by simp)) c member)
    · exact ih (fun l listed => lettered l (List.mem_cons_of_mem _ listed)) member

/-! ### What the readers of keywords find -/

theorem not_of_mem_head?_dropWhile {p : Char → Bool} {s : List Char} {c : Char}
    (first : c ∈ (s.dropWhile p).head?) : p c = false := by
  have stops := List.head?_dropWhile_not p s
  rw [Option.mem_def.mp first] at stops
  exact stops

theorem keyword?_eq_some_iff {ks s rest : List Char} :
    keyword? ks s = some rest ↔ ∃ word, word.map fold = ks ∧ s = word ++ rest := by
  constructor
  · intro found
    induction ks generalizing s with
    | nil => exact ⟨[], rfl, by simpa [keyword?] using found⟩
    | cons k ks ih =>
      cases s with
      | nil => simp [keyword?] at found
      | cons c s =>
        simp only [keyword?, Option.ite_none_right_eq_some] at found
        obtain ⟨word, spelled, rfl⟩ := ih found.2
        exact ⟨c :: word, by simp [found.1, spelled], rfl⟩
  · rintro ⟨word, rfl, rfl⟩
    induction word with
    | nil => rfl
    | cons c word ih => simpa [keyword?] using ih

theorem gap?_eq_some_iff {s rest : List Char} :
    gap? s = some rest ↔ ∃ g, Gap g ∧ s = g ++ rest ∧ NoGapAhead rest := by
  constructor
  · intro found
    cases s with
    | nil => simp [gap?] at found
    | cons c s =>
      simp only [gap?, Option.ite_none_right_eq_some, Option.some.injEq] at found
      obtain ⟨gap, rfl⟩ := found
      refine ⟨c :: s.takeWhile isGap, ⟨by simp, ?_⟩, by simp, ?_⟩
      · intro d member
        rcases List.mem_cons.mp member with rfl | member
        · exact gap
        · exact List.all_eq_true.mp List.all_takeWhile d member
      · exact fun d first => not_of_mem_head?_dropWhile first
  · rintro ⟨g, gap, rfl, ahead⟩
    obtain ⟨c, g, rfl⟩ := List.exists_cons_of_ne_nil gap.1
    have inside : ∀ d ∈ g, isGap d = true := fun d member => gap.2 d (List.mem_cons_of_mem _ member)
    simp [gap?, gap.2 c (by simp), (takeWhile_run isGap g rest inside ahead).2]

/-- Keywords are found where they open the text, and what is left starts behind the last gap. -/
theorem keywords?_eq_some_iff {ks : List String} (lettered : ∀ k ∈ ks, isLettered k = true)
    {s rest : List Char} :
    keywords? ks s = some rest ↔ ∃ o, Opening ks o ∧ s = o ++ rest ∧ NoGapAhead rest := by
  induction ks generalizing s with
  | nil =>
    rw [keywords?, gap?_eq_some_iff]
    constructor
    · rintro ⟨g, gap, same, ahead⟩
      exact ⟨g, .gap gap, same, ahead⟩
    · rintro ⟨_, ⟨gap⟩, same, ahead⟩
      exact ⟨_, gap, same, ahead⟩
  | cons k ks ih =>
    have ih := @ih fun k member => lettered k (List.mem_cons_of_mem _ member)
    simp only [keywords?, Option.bind_eq_bind, Option.bind_eq_some_iff]
    constructor
    · rintro ⟨afterGap, gapFound, afterWord, wordFound, found⟩
      obtain ⟨g, gap, rfl, _⟩ := gap?_eq_some_iff.mp gapFound
      obtain ⟨word, spelled, rfl⟩ := keyword?_eq_some_iff.mp wordFound
      obtain ⟨tail, opening, rfl, ahead⟩ := ih.mp found
      exact ⟨g ++ word ++ tail, .keyword gap spelled opening, by simp, ahead⟩
    · rintro ⟨o, opened, rfl, ahead⟩
      obtain ⟨g, word, tail, rfl, gap, spelled, opening⟩ := opened.exists_cons
      refine ⟨word ++ tail ++ rest, ?_, tail ++ rest, ?_, ih.mpr ⟨tail, opening, rfl, ahead⟩⟩
      · refine gap?_eq_some_iff.mpr ⟨g, gap, by simp, ?_⟩
        rw [List.append_assoc]
        exact spelled.noGapAhead (lettered k (by simp)) _
      · exact keyword?_eq_some_iff.mpr ⟨word, spelled, by simp⟩

theorem run?_eq_some_iff {isPart : Char → Bool} {s part rest : List Char} :
    run? isPart s = some (part, rest) ↔
      s = part ++ rest ∧ part ≠ [] ∧ (∀ c ∈ part, isPart c = true) ∧
        ∀ c ∈ rest.head?, isPart c = false := by
  constructor
  · intro found
    unfold run? at found
    split at found
    next => simp at found
    next front nonempty =>
      simp only [Option.some.injEq, Prod.mk.injEq] at found
      obtain ⟨rfl, rfl⟩ := found
      refine ⟨by simp, fun empty => nonempty empty, ?_, ?_⟩
      · exact List.all_eq_true.mp List.all_takeWhile
      · exact fun c first => not_of_mem_head?_dropWhile first
  · rintro ⟨rfl, nonempty, inside, ends⟩
    obtain ⟨taken, dropped⟩ := takeWhile_run isPart part rest inside ends
    unfold run?
    rw [taken, dropped]
    split
    next => contradiction
    next => rfl

/-- A text is cut at the first place where its rest is accepted. -/
theorem cutBefore?_eq_some_iff {α : Type} {accept : List Char → Option α} {s front : List Char}
    {a : α} :
    cutBefore? accept s = some (front, a) ↔
      ∃ rest, s = front ++ rest ∧ accept rest = some a ∧
        ∀ pre back, front = pre ++ back → back ≠ [] → accept (back ++ rest) = none := by
  induction s generalizing front with
  | nil =>
    simp only [cutBefore?, Option.map_eq_some_iff, Prod.mk.injEq]
    constructor
    · rintro ⟨b, found, rfl, rfl⟩
      exact ⟨[], rfl, found, fun pre back whole nonempty => by simp_all⟩
    · rintro ⟨rest, whole, found, _⟩
      obtain ⟨rfl, rfl⟩ := List.nil_eq_append_iff.mp whole
      exact ⟨a, found, rfl, rfl⟩
  | cons c s ih =>
    cases here : accept (c :: s) with
    | some b =>
      simp only [cutBefore?, here, Option.some.injEq, Prod.mk.injEq]
      constructor
      · rintro ⟨rfl, rfl⟩
        exact ⟨c :: s, rfl, here, fun pre back whole nonempty => by simp_all⟩
      · rintro ⟨rest, whole, found, earlier⟩
        cases front with
        | nil =>
          rw [List.nil_append] at whole
          rw [← whole, here, Option.some.injEq] at found
          exact ⟨rfl, found⟩
        | cons d front =>
          have refused := earlier [] (d :: front) rfl (by simp)
          rw [← whole, here] at refused
          cases refused
    | none =>
      simp only [cutBefore?, here, Option.map_eq_some_iff, Prod.exists, Prod.mk.injEq]
      constructor
      · rintro ⟨inner, b, found, rfl, rfl⟩
        obtain ⟨rest, rfl, found, earlier⟩ := ih.mp found
        refine ⟨rest, rfl, found, fun pre back whole nonempty => ?_⟩
        cases pre with
        | nil => rwa [← show c :: inner = back from whole]
        | cons d pre => exact earlier pre back (List.cons.inj whole).2 nonempty
      · rintro ⟨rest, whole, found, earlier⟩
        cases front with
        | nil =>
          rw [List.nil_append] at whole
          rw [← whole, here] at found
          cases found
        | cons d front =>
          obtain ⟨rfl, rfl⟩ := List.cons.inj whole
          refine ⟨front, a, ih.mpr ⟨rest, rfl, found, fun pre back inner => ?_⟩, rfl, rfl⟩
          exact earlier (c :: pre) back (by rw [inner, List.cons_append])

/-! ### Words between gaps -/

theorem splitOn_ne_nil (isMark : Char → Bool) (s : List Char) : splitOn isMark s ≠ [] := by
  cases s with
  | nil => simp [splitOn]
  | cons c s =>
    rw [splitOn]
    split
    · simp
    · cases splitOn isMark s <;> simp [consPart]

theorem splitOn_append_cons {isMark : Char → Bool} {c : Char} (mark : isMark c = true)
    (front rest : List Char) :
    splitOn isMark (front ++ c :: rest) = splitOn isMark front ++ splitOn isMark rest := by
  induction front with
  | nil => simp [splitOn, mark]
  | cons d front ih =>
    rw [List.cons_append, splitOn, splitOn, ih]
    split
    · rfl
    · obtain ⟨part, parts, shape⟩ := List.exists_cons_of_ne_nil (splitOn_ne_nil isMark front)
      rw [shape, List.cons_append, consPart, consPart, List.cons_append]

theorem head?_splitOn (isMark : Char → Bool) (s : List Char) :
    (splitOn isMark s).head? = some (s.takeWhile (!isMark ·)) := by
  induction s with
  | nil => rfl
  | cons c s ih =>
    rw [splitOn]
    split
    next mark => simp [mark]
    next mark =>
      obtain ⟨part, parts, shape⟩ := List.exists_cons_of_ne_nil (splitOn_ne_nil isMark s)
      rw [shape, List.head?_cons, Option.some.injEq] at ih
      simp [shape, consPart, mark, ih]

/-- The first word of a text, after the gap before it. -/
def firstWord (s : List Char) : List Char :=
  (s.dropWhile isGap).takeWhile (!isGap ·)

/-- The first word is one of the parts between gaps. -/
theorem firstWord_mem_splitOn {s : List Char} (nonempty : firstWord s ≠ []) :
    firstWord s ∈ splitOn isGap s := by
  induction s with
  | nil => exact absurd rfl nonempty
  | cons c s ih =>
    by_cases gap : isGap c = true
    · have same : firstWord (c :: s) = firstWord s := by simp [firstWord, gap]
      rw [same] at nonempty ⊢
      simp [splitOn, gap, ih nonempty]
    · have same : firstWord (c :: s) = (c :: s).takeWhile (!isGap ·) := by simp [firstWord, gap]
      rw [same]
      exact List.mem_of_head? (head?_splitOn isGap (c :: s))

/-- A word after a gap is one of the words of the whole text. -/
theorem firstWord_mem_fields {pre rest : List Char} {c : Char} (gap : isGap c = true)
    (nonempty : firstWord (c :: rest) ≠ []) :
    firstWord (c :: rest) ∈ fields isGap (pre ++ c :: rest) := by
  have same : firstWord (c :: rest) = firstWord rest := by simp [firstWord, gap]
  rw [same] at nonempty ⊢
  rw [fields, List.mem_filter, splitOn_append_cons gap, List.mem_append]
  exact ⟨.inr (firstWord_mem_splitOn nonempty), by simpa using nonempty⟩

/-! ### Readers that wait for keywords -/

/-- After a gap the text goes on with the keyword as a word of its own. -/
def StartsWith (k : String) (s : List Char) : Prop :=
  (∃ c ∈ s.head?, isGap c = true) ∧ Spelled k (firstWord s)

theorem Opening.startsWith {k : String} {ks : List String} {o : List Char}
    (opening : Opening (k :: ks) o) (lettered : isLettered k = true) (rest : List Char) :
    StartsWith k (o ++ rest) := by
  obtain ⟨c, o', first, gap⟩ := opening.head_isGap
  refine ⟨⟨c, by simp [first], gap⟩, ?_⟩
  obtain ⟨g, word, tail, rfl, gap, spelled, opening⟩ := opening.exists_cons
  obtain ⟨d, tail', rfl, behind⟩ := opening.head_isGap
  have apart : firstWord (g ++ word ++ d :: tail' ++ rest) = word := by
    rw [firstWord, List.append_assoc, List.append_assoc,
      (takeWhile_run isGap g _ gap.2 (spelled.noGapAhead lettered _)).2]
    refine (takeWhile_run (!isGap ·) word _ (fun e member => ?_) ?_).1
    · simp [spelled.isGap_eq_false lettered e member]
    · simp [behind]
  rw [apart]
  exact spelled

theorem startsWith_of_keywords? {k : String} {ks : List String}
    (lettered : ∀ l ∈ k :: ks, isLettered l = true) {s rest : List Char}
    (found : keywords? (k :: ks) s = some rest) : StartsWith k s := by
  obtain ⟨o, opening, rfl, _⟩ := (keywords?_eq_some_iff lettered).mp found
  exact opening.startsWith (lettered k (by simp)) rest

theorem StartsWith.exists_visible {k : String} {s : List Char} (starts : StartsWith k s)
    (lettered : isLettered k = true) : ∃ c ∈ s, isGap c = false := by
  obtain ⟨c, rest, shape⟩ := List.exists_cons_of_ne_nil (starts.2.ne_nil lettered)
  have inside : c ∈ firstWord s := by simp [shape]
  have visible : (!isGap c) = true := by
    have all := List.all_takeWhile (p := (!isGap ·)) (l := s.dropWhile isGap)
    exact List.all_eq_true.mp all c inside
  refine ⟨c, ?_, by simpa using visible⟩
  exact (List.dropWhile_suffix _).mem ((List.takeWhile_prefix _).mem inside)

/-- A reader that accepts a text only at its end, or where one of the words opens it. -/
def Awaits {α : Type} (words : List String) (accept : List Char → Option α) : Prop :=
  ∀ s a, accept s = some a → s = [] ∨ ∃ k ∈ words, StartsWith k s

theorem Awaits.mono {α : Type} {words more : List String} {accept : List Char → Option α}
    (awaits : Awaits words accept) (included : words ⊆ more) : Awaits more accept :=
  fun s a found => (awaits s a found).imp_right fun ⟨k, member, starts⟩ =>
    ⟨k, included member, starts⟩

theorem Awaits.optionalClause? {α : Type} {words : List String} {next? : List Char → Option α}
    (awaits : Awaits words next?) {k : String} {ks : List String}
    (lettered : ∀ l ∈ k :: ks, isLettered l = true) :
    Awaits (k :: words) (optionalClause? (k :: ks) next?) := by
  intro s a found
  unfold Sql.optionalClause? at found
  split at found
  next body opened => exact .inr ⟨k, by simp, startsWith_of_keywords? lettered opened⟩
  next =>
    obtain ⟨b, accepted, _⟩ := Option.map_eq_some_iff.mp found
    exact (awaits s b accepted).imp_right fun ⟨l, member, starts⟩ =>
      ⟨l, List.mem_cons_of_mem _ member, starts⟩

/-- Where such a reader accepts there is a gap or the end. -/
theorem Awaits.isGap_ahead {α : Type} {words : List String} {accept : List Char → Option α}
    (awaits : Awaits words accept) {s : List Char} {a : α} (found : accept s = some a) :
    ∀ c ∈ s.head?, isGap c = true := by
  intro c first
  rcases awaits s a found with rfl | ⟨_, _, ⟨d, second, gap⟩, _⟩
  · simp at first
  · rwa [Option.mem_unique first second]

/-! ### Texts between keywords -/

theorem trimEnd_isPrefix (s : List Char) : trimEnd s <+: s := by
  have back := List.reverse_prefix.mpr (List.dropWhile_suffix isBlank (l := s.reverse))
  rwa [List.reverse_reverse] at back

/-- No blank stands at the ends of a trimmed text. -/
theorem isBlank_ends_of_trim {s : List Char} (trimmed : trim s = s) :
    (∀ c ∈ s.head?, isBlank c = false) ∧ ∀ c ∈ s.getLast?, isBlank c = false := by
  constructor
  · intro c first
    obtain ⟨rest, whole⟩ := trimEnd_isPrefix (trimStart s)
    have start : c ∈ (trimStart s).head? := by
      rw [← whole, show trimEnd (trimStart s) = s from trimmed, List.head?_append,
        Option.mem_def.mp first]
      rfl
    exact not_of_mem_head?_dropWhile start
  · intro c last
    rw [← trimmed, trim, trimEnd, List.getLast?_reverse] at last
    exact not_of_mem_head?_dropWhile last

/-- Where a text ends in no gap, no part at its end is a gap. -/
theorem exists_visible_of_append {pre back : List Char} (nonempty : back ≠ [])
    (visible : ∀ c ∈ (pre ++ back).getLast?, isGap c = false) : ∃ c ∈ back, isGap c = false := by
  refine ⟨back.getLast nonempty, List.getLast_mem nonempty, visible _ ?_⟩
  rw [List.getLast?_append_of_ne_nil _ nonempty, List.getLast?_eq_some_getLast nonempty]
  rfl

/-- A text between keywords: not empty, without blanks at its ends, and with none of some words
among the words between its gaps. -/
structure FreeText (stops : List String) where
  chars : List Char
  nonempty : chars ≠ [] := by decide +kernel
  trimmed : trim chars = chars := by decide +kernel
  unstopped : ∀ k ∈ stops, ∀ word ∈ fields isGap chars, ¬Spelled k word := by decide +kernel

theorem dropWhile_isGap_ne_nil {s : List Char} {c : Char} (member : c ∈ s)
    (visible : isGap c = false) : s.dropWhile isGap ≠ [] := by
  rw [ne_eq, List.dropWhile_eq_nil_iff]
  intro gaps
  simp [gaps c member] at visible

/-- A text with something visible, and the gaps around it. -/
theorem exists_core {s : List Char} {c : Char} (member : c ∈ s) (visible : isGap c = false) :
    ∃ lead core trail, s = lead ++ core ++ trail ∧ (∀ d ∈ lead, isGap d = true) ∧
      (∀ d ∈ trail, isGap d = true) ∧ core ≠ [] ∧ (∀ d ∈ core.head?, isGap d = false) ∧
      ∀ d ∈ core.getLast?, isGap d = false := by
  obtain ⟨first, rest, start⟩ := List.exists_cons_of_ne_nil (dropWhile_isGap_ne_nil member visible)
  have head : isGap first = false := not_of_mem_head?_dropWhile (by rw [start]; rfl)
  -- The same search from the back.
  let core := ((first :: rest).reverse.dropWhile isGap).reverse
  let trail := ((first :: rest).reverse.takeWhile isGap).reverse
  have cut : core ++ trail = first :: rest := by
    rw [← List.reverse_append, List.takeWhile_append_dropWhile, List.reverse_reverse]
  have nonempty : core ≠ [] := by
    rw [List.reverse_ne_nil_iff]
    exact dropWhile_isGap_ne_nil (by simp) head
  refine ⟨s.takeWhile isGap, core, trail, ?_, List.all_eq_true.mp List.all_takeWhile, ?_, nonempty,
    ?_, ?_⟩
  · rw [List.append_assoc, cut, ← start, List.takeWhile_append_dropWhile]
  · intro d inside
    exact List.all_eq_true.mp List.all_takeWhile d (List.mem_reverse.mp inside)
  · intro d ahead
    have same := congrArg List.head? cut
    rw [List.head?_append_of_ne_nil _ nonempty, Option.mem_def.mp ahead] at same
    obtain rfl : d = first := by simpa using same
    exact head
  · intro d last
    rw [List.getLast?_reverse] at last
    exact not_of_mem_head?_dropWhile last

theorem firstWord_ne_nil {s : List Char} {c : Char} (member : c ∈ s) (visible : isGap c = false) :
    firstWord s ≠ [] := by
  obtain ⟨d, rest, shape⟩ := List.exists_cons_of_ne_nil (dropWhile_isGap_ne_nil member visible)
  have stop : isGap d = false := not_of_mem_head?_dropWhile (by rw [shape]; rfl)
  simp [firstWord, shape, stop]

/-- What follows a text with a gap does not reach into its first word. -/
theorem firstWord_append {back rest : List Char} {c : Char} (member : c ∈ back)
    (visible : isGap c = false) (next : ∀ d ∈ rest.head?, isGap d = true) :
    firstWord (back ++ rest) = firstWord back := by
  have nonempty : (back.dropWhile isGap).isEmpty = false :=
    List.isEmpty_eq_false_iff.mpr (dropWhile_isGap_ne_nil member visible)
  have stops : rest.takeWhile (!isGap ·) = [] := by
    cases rest with
    | nil => rfl
    | cons d rest => simp [next d (by simp)]
  rw [firstWord, List.dropWhile_append, nonempty, if_neg (by simp), List.takeWhile_append, stops]
  split
  next whole =>
    rw [List.append_nil, firstWord]
    exact ((List.takeWhile_prefix _).eq_of_length whole).symm
  next => rfl

/-- A word that a text does not have opens no part of it, whatever follows the part behind a gap. -/
theorem not_startsWith {k : String} {s pre back tail rest : List Char}
    (absent : ∀ word ∈ fields isGap s, ¬Spelled k word) (whole : s = pre ++ (back ++ tail))
    {c : Char} (member : c ∈ back) (visible : isGap c = false)
    (inside : ∀ d ∈ tail.head?, isGap d = true) (next : ∀ d ∈ rest.head?, isGap d = true) :
    ¬StartsWith k (back ++ rest) := by
  rintro ⟨⟨d, first, gap⟩, spelled⟩
  rw [firstWord_append member visible next, ← firstWord_append member visible inside] at spelled
  have word : firstWord (back ++ tail) ≠ [] :=
    firstWord_ne_nil (List.mem_append_left tail member) visible
  obtain ⟨e, back, rfl⟩ := List.exists_cons_of_ne_nil (List.ne_nil_of_mem member)
  obtain rfl : e = d := by simpa using first
  rw [List.cons_append] at whole word spelled
  exact absent _ (whole ▸ firstWord_mem_fields gap word) spelled

namespace FreeText

variable {stops : List String} (t : FreeText stops)

theorem noGapAhead (rest : List Char) : NoGapAhead (t.chars ++ rest) := by
  intro c first
  rw [List.head?_append_of_ne_nil _ t.nonempty] at first
  exact isGap_eq_false ((isBlank_ends_of_trim t.trimmed).1 c first)

variable {α : Type} {accept : List Char → Option α}

/-- A reader that waits for words which the text does not have accepts nowhere inside it. -/
theorem refuses (awaits : Awaits stops accept) {rest : List Char}
    (next : ∀ c ∈ rest.head?, isGap c = true) {pre back : List Char} (whole : t.chars = pre ++ back)
    (nonempty : back ≠ []) : accept (back ++ rest) = none := by
  rw [Option.eq_none_iff_forall_ne_some]
  intro a found
  obtain empty | ⟨k, listed, starts⟩ := awaits _ a found
  · exact nonempty (List.append_eq_nil_iff.mp empty).1
  -- The last character is no gap, so the word found here ends inside the text.
  obtain ⟨c, member, visible⟩ := exists_visible_of_append nonempty fun c last =>
    isGap_eq_false ((isBlank_ends_of_trim t.trimmed).2 c (whole ▸ last))
  rw [← List.append_nil back] at whole
  exact not_startsWith (t.unstopped k listed) whole member visible (by simp) next starts

/-- A text is cut off whole by a reader that waits for words which it does not have. -/
theorem cutBefore? (awaits : Awaits stops accept) {rest : List Char} {a : α}
    (found : accept rest = some a) : cutBefore? accept (t.chars ++ rest) = some (t.chars, a) :=
  cutBefore?_eq_some_iff.mpr ⟨rest, rfl, found, fun _ _ whole nonempty =>
    t.refuses awaits (awaits.isGap_ahead found) whole nonempty⟩

end FreeText

end SqlToMongo.Sql
