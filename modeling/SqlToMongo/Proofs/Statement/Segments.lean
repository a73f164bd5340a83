import SqlToMongo.Proofs.Statement.Escapes
import SqlToMongo.Proofs.Statement.Layout

/-!
# What a canonical layout keeps

A text is read as a row of segments: its literals, each as a whole, and the characters between them.
White space between literals is layout. What matters of a text are its other segments, in their
order, and which of them have white space before them.

Collapsing writes every literal as it stands and never ends or starts one, since the character it
writes behind a literal is a space or the one that was there. So the text that is written has the
same segments, with one space for each run of white space. Trimming takes only segments off the
ends, provided that no literal is left open: a literal without its end would lose the blanks and
semicolons that close the text.

## Main results

`segments_collapse`: what is written reads as the segments that were read.
`normalize_changes_layout_only`: what a statement keeps in its canonical layout.
-/

namespace SqlToMongo.Sql

open Statement Text

/-- A character outside literals, or a literal with its quotes. -/
inductive Segment where
  | plain (c : Char)
  | literal (text : List Char)
  deriving DecidableEq, Repr

namespace Segment

def chars : Segment → List Char
  | plain c => [c]
  | literal text => text

/-- ASCII white space outside literals. -/
def isSpace : Segment → Bool
  | plain c => isLayout c
  | literal _ => false

def literal? : Segment → Option (List Char)
  | plain _ => none
  | literal text => some text

end Segment

/-! ### Reading segments -/

theorem length_takeQuoted_le (q : Char) (s : List Char) :
    (takeQuoted q s).2.length ≤ s.length := by
  have whole := congrArg List.length (takeQuoted_append q s)
  rw [List.length_append] at whole
  omega

/-- The segments of a text; every literal runs as far as the reader of literals takes it. -/
def segments : List Char → List Segment
  | [] => []
  | c :: rest =>
    if isQuote c then .literal (c :: (takeQuoted c rest).1) :: segments (takeQuoted c rest).2
    else .plain c :: segments rest
termination_by s => s.length
decreasing_by
  · have := length_takeQuoted_le c rest
    simp only [List.length_cons]
    omega
  · simp

/-- The literals of a text. -/
def literals (s : List Char) : List (List Char) :=
  (segments s).filterMap Segment.literal?

/-- The text without the white space outside its literals. -/
def visible (s : List Char) : List Char :=
  ((segments s).filter (!·.isSpace)).flatMap Segment.chars

/-- Every segment that is no white space, with the white space right before it. -/
def spacedFrom (gap : List Char) : List Segment → List (List Char × Segment)
  | [] => []
  | segment :: rest =>
    if segment.isSpace then spacedFrom (gap ++ segment.chars) rest
    else (gap, segment) :: spacedFrom [] rest

def spaced (s : List Char) : List (List Char × Segment) :=
  spacedFrom [] (segments s)

/-- The text of segments with white space before them. -/
def unspaced (parts : List (List Char × Segment)) : List Char :=
  parts.flatMap fun (gap, segment) => gap ++ segment.chars

/-- One space where there is white space. -/
def tighten : List Char × Segment → List Char × Segment
  | (gap, segment) => (if gap = [] then [] else [' '], segment)

/-- A literal that ends with its closing quote: whatever it holds has its quotes doubled. -/
def IsClosed (text : List Char) : Prop :=
  ∃ q content, text = encode q content

/-- The middle of a text, without blanks at its start and without blanks and semicolons at its
end. -/
structure Trims (lead core trail : List Char) : Prop where
  lead : ∀ c ∈ lead, isBlank c = true
  first : ∀ c ∈ core.head?, isBlank c = false
  last : ∀ c ∈ core.getLast?, (isBlank c || c == ';') = false
  trail : ∀ c ∈ trail, (isBlank c || c == ';') = true

theorem segments_plain {c : Char} (plain : isQuote c = false) (rest : List Char) :
    segments (c :: rest) = .plain c :: segments rest := by
  rw [segments, if_neg (by simp [plain])]

theorem segments_quote {q : Char} (quote : isQuote q = true) (rest : List Char) :
    segments (q :: rest) =
      .literal (q :: (takeQuoted q rest).1) :: segments (takeQuoted q rest).2 := by
  rw [segments, if_pos quote]

theorem literals_plain {c : Char} (plain : isQuote c = false) (rest : List Char) :
    literals (c :: rest) = literals rest := by
  rw [literals, segments_plain plain]
  rfl

theorem literals_quote {q : Char} (quote : isQuote q = true) (rest : List Char) :
    literals (q :: rest) = (q :: (takeQuoted q rest).1) :: literals (takeQuoted q rest).2 := by
  rw [literals, segments_quote quote]
  rfl

theorem segments_plain_append {front : List Char} (plain : ∀ c ∈ front, isQuote c = false)
    (s : List Char) : segments (front ++ s) = front.map .plain ++ segments s := by
  induction front with
  | nil => rfl
  | cons c front ih =>
    rw [List.forall_mem_cons] at plain
    rw [List.cons_append, segments_plain plain.1, ih plain.2]
    rfl

/-- The segments are the whole text. -/
theorem flatMap_segments (s : List Char) : (segments s).flatMap Segment.chars = s := by
  fun_induction segments s with
  | case1 => rfl
  | case2 q rest quote ih =>
    rw [List.flatMap_cons, ih]
    simp [Segment.chars, takeQuoted_append]
  | case3 c rest plain ih =>
    rw [List.flatMap_cons, ih]
    rfl

/-! ### Segments in what is written -/

/-- Inside a literal nothing changes. -/
theorem collapse_takeQuoted {q : Char} (quote : isQuote q = true) (s : List Char) :
    collapse (some q) false s =
      (takeQuoted q s).1 ++ collapse none false (takeQuoted q s).2 := by
  fun_induction takeQuoted q s with
  | case1 => rfl
  | case2 c => simp [collapse]
  | case3 rest body after taken ih =>
    -- A doubled quote closes the literal and opens it again.
    rw [taken] at ih
    simp [collapse, openQuote, quote, isLayout_of_isQuote quote, ih]
  | case4 => simp [collapse, openQuote]
  | case5 c d rest different body after taken ih =>
    rw [taken] at ih
    simp [collapse, openQuote, different] at ih ⊢
    exact ih

theorem head?_takeQuoted (q : Char) (s : List Char) :
    ∀ c ∈ (takeQuoted q s).2.head?, c ≠ q := by
  fun_induction takeQuoted q s with
  | case1 => simp
  | case2 => simp
  | case3 rest body after taken ih => simpa [taken] using ih
  | case4 d rest different => simpa using different
  | case5 c d rest different body after taken ih => simpa [taken] using ih

theorem takeQuoted_ne_nil (q c : Char) (s : List Char) : (takeQuoted q (c :: s)).1 ≠ [] := by
  cases s with
  | nil => simp [takeQuoted]
  | cons d s =>
    rw [takeQuoted]
    split
    next => split <;> simp
    next => simp

/-- A literal is read as before when something else follows it that does not start with its
quote. -/
theorem takeQuoted_followed {q : Char} {s after : List Char}
    (ends : (takeQuoted q s).2 = [] → after = []) (single : ∀ c ∈ after.head?, c ≠ q) :
    takeQuoted q ((takeQuoted q s).1 ++ after) = ((takeQuoted q s).1, after) := by
  fun_induction takeQuoted q s with
  | case1 => simp [ends rfl, takeQuoted]
  | case2 c => simp [ends rfl, takeQuoted]
  | case3 rest body left taken ih =>
    rw [taken] at ih
    simp [takeQuoted, ih ends]
  | case4 d rest different =>
    cases after with
    | nil => rfl
    | cons c after => simp [takeQuoted, single c (by simp)]
  | case5 c d rest different body left taken ih =>
    -- The reader looks one character ahead, and the literal holds that character.
    obtain ⟨e, tail, shape⟩ := List.exists_cons_of_ne_nil (takeQuoted_ne_nil q d rest)
    rw [taken] at ih shape
    obtain rfl : body = e :: tail := shape
    have inner := ih ends
    simp only [List.cons_append] at inner ⊢
    rw [takeQuoted, if_neg different, inner]

/-- White space that waits is written first. -/
theorem head?_collapse_true (s : List Char) : ∀ c ∈ (collapse none true s).head?, c = ' ' := by
  induction s with
  | nil => simp [collapse]
  | cons d s ih =>
    rw [collapse]
    split
    next => exact ih
    next => simp

theorem head?_collapse (s : List Char) :
    ∀ c ∈ (collapse none false s).head?, c = ' ' ∨ c ∈ s.head? := by
  cases s with
  | nil => simp [collapse]
  | cons d s =>
    intro c first
    rw [collapse] at first
    split at first
    next => exact .inl (head?_collapse_true s c first)
    next => exact .inr (by simpa using first)

/-- The segments that are written, when white space may wait to be written. -/
def respace (pending : Bool) : List Segment → List Segment
  | [] => []
  | segment :: rest =>
    if segment.isSpace then respace true rest
    else (if pending then [.plain ' '] else []) ++ segment :: respace false rest

theorem segments_space (pending : Bool) (s : List Char) :
    segments ((if pending then [' '] else []) ++ s) =
      (if pending then [.plain ' '] else []) ++ segments s := by
  cases pending with
  | false => rfl
  | true => exact segments_plain (by decide) s

theorem collapse_visible {c : Char} (visible : isLayout c = false) (pending : Bool)
    (rest : List Char) :
    collapse none pending (c :: rest) =
      (if pending then [' '] else []) ++ c :: collapse (openQuote none c) false rest := by
  rw [collapse, if_neg (by simp [visible])]
  cases pending <;> rfl

/-- What is written reads as the segments that were read. -/
theorem segments_collapse (pending : Bool) (s : List Char) :
    segments (collapse none pending s) = respace pending (segments s) := by
  fun_induction segments s generalizing pending with
  | case1 => simp [collapse, segments, respace]
  | case2 q rest quote ih =>
    have ends : (takeQuoted q rest).2 = [] →
        collapse none false (takeQuoted q rest).2 = [] := fun nothing => by simp [nothing, collapse]
    -- A space is no quote, and the character that follows the literal is not its quote either.
    have single : ∀ c ∈ (collapse none false (takeQuoted q rest).2).head?, c ≠ q := by
      intro c first
      rcases head?_collapse _ c first with rfl | first
      · rintro rfl
        exact absurd quote (by decide)
      · exact head?_takeQuoted q rest c first
    rw [collapse_visible (isLayout_of_isQuote quote), segments_space, openQuote, if_pos quote,
      collapse_takeQuoted quote, segments_quote quote, takeQuoted_followed ends single, ih, respace]
    simp [Segment.isSpace]
  | case3 c rest plain ih =>
    have plain : isQuote c = false := by simpa using plain
    by_cases layout : isLayout c = true
    · rw [collapse, if_pos ⟨rfl, layout⟩, ih, respace]
      simp [Segment.isSpace, layout]
    · have layout : isLayout c = false := by simpa using layout
      have none : openQuote none c = none := by simp [openQuote, plain]
      rw [collapse_visible layout, segments_space, none, segments_plain plain, ih, respace]
      simp [Segment.isSpace, layout]

/-! ### Segments and the white space before them -/

theorem spacedFrom_respace {gap : List Char} {pending : Bool} (waits : pending = true ↔ gap ≠ [])
    (parts : List Segment) :
    spacedFrom [] (respace pending parts) = (spacedFrom gap parts).map tighten := by
  induction parts generalizing gap pending with
  | nil => rfl
  | cons segment rest ih =>
    cases space : segment.isSpace with
    | true =>
      have more : true = true ↔ gap ++ segment.chars ≠ [] := by
        cases segment with
        | plain c => simp [Segment.chars]
        | literal text => simp [Segment.isSpace] at space
      simp [respace, spacedFrom, space, ih more]
    | false =>
      have inner := @ih [] false (by simp)
      have single : Segment.isSpace (.plain ' ') = true := by decide
      cases pending with
      | true =>
        have some : gap ≠ [] := waits.mp rfl
        simp [respace, spacedFrom, space, inner, single, tighten, some, Segment.chars]
      | false =>
        have none : gap = [] := by simpa using waits
        simp [respace, spacedFrom, space, inner, tighten, none]

theorem spaced_normalize (s : List Char) :
    spaced (normalize s) = (spaced (dropTerminators (trimStart s))).map tighten := by
  have waits : false = true ↔ ([] : List Char) ≠ [] := by simp
  rw [normalize_eq_collapse, spaced, segments_collapse, spacedFrom_respace waits, spaced]

theorem map_snd_spacedFrom (gap : List Char) (parts : List Segment) :
    (spacedFrom gap parts).map Prod.snd = parts.filter (!·.isSpace) := by
  induction parts generalizing gap with
  | nil => rfl
  | cons segment rest ih => cases space : segment.isSpace <;> simp [spacedFrom, space, ih]

theorem literals_eq_spaced (s : List Char) :
    literals s = (spaced s).filterMap fun part => part.2.literal? := by
  -- White space is no literal.
  have same (segment : Segment) :
      (if (!segment.isSpace) = true then segment.literal? else none) = segment.literal? := by
    cases segment <;> simp [Segment.literal?, Segment.isSpace]
  calc literals s
      = ((segments s).filter (!·.isSpace)).filterMap Segment.literal? := by
        rw [List.filterMap_filter, literals]
        simp only [same]
    _ = ((spaced s).map Prod.snd).filterMap Segment.literal? := by
        rw [spaced, map_snd_spacedFrom]
    _ = (spaced s).filterMap fun part => part.2.literal? := List.filterMap_map ..

theorem visible_eq_spaced (s : List Char) :
    visible s = (spaced s).flatMap fun part => part.2.chars := by
  rw [visible, ← map_snd_spacedFrom [], List.flatMap_map, spaced]

/-- A text that does not end in white space is given back by its segments. -/
theorem unspaced_spacedFrom {parts : List Segment}
    (last : ∀ segment ∈ parts.getLast?, segment.isSpace = false) {gap : List Char}
    (ends : parts = [] → gap = []) :
    unspaced (spacedFrom gap parts) = gap ++ parts.flatMap Segment.chars := by
  induction parts generalizing gap with
  | nil => simp [spacedFrom, unspaced, ends rfl]
  | cons segment rest ih =>
    have later : ∀ next ∈ rest.getLast?, next.isSpace = false := by
      intro next member
      apply last
      cases rest with
      | nil => simp at member
      | cons => simpa using member
    cases space : segment.isSpace with
    | true =>
      have more : rest ≠ [] := by
        rintro rfl
        simpa [space] using last segment (by simp)
      have inner := @ih later (gap ++ segment.chars) fun none => absurd none more
      simp [spacedFrom, space, inner]
    | false =>
      have inner := @ih later [] fun _ => rfl
      simp only [unspaced, List.nil_append] at inner
      simp [spacedFrom, space, unspaced, inner]

theorem unspaced_spaced {s : List Char} (last : ∀ c ∈ s.getLast?, isBlank c = false) :
    unspaced (spaced s) = s := by
  have visible : ∀ segment ∈ (segments s).getLast?, segment.isSpace = false := by
    intro segment member
    obtain ⟨front, shape⟩ := List.getLast?_eq_some_iff.mp member
    have whole := flatMap_segments s
    cases segment with
    | literal text => rfl
    | plain c =>
      rw [shape] at whole
      exact isLayout_eq_false (last c (by simp [← whole, Segment.chars]))
  rw [spaced, unspaced_spacedFrom visible fun _ => rfl, List.nil_append, flatMap_segments]

theorem of_mem_spacedFrom {gap : List Char} (spaces : ∀ c ∈ gap, isLayout c = true)
    {parts : List Segment} {part : List Char × Segment} (member : part ∈ spacedFrom gap parts) :
    (∀ c ∈ part.1, isLayout c = true) ∧ part.2.isSpace = false := by
  induction parts generalizing gap with
  | nil => simp [spacedFrom] at member
  | cons segment rest ih =>
    cases space : segment.isSpace with
    | true =>
      rw [spacedFrom, if_pos space] at member
      refine ih (List.forall_mem_append.mpr ⟨spaces, fun c inside => ?_⟩) member
      cases segment with
      | plain d =>
        obtain rfl := List.mem_singleton.mp inside
        exact space
      | literal text => simp [Segment.isSpace] at space
    | false =>
      rw [spacedFrom, if_neg (by simp [space]), List.mem_cons] at member
      rcases member with rfl | member
      · exact ⟨spaces, space⟩
      · exact ih (by simp) member

/-! ### Closed literals -/

/-- A literal that is closed does not reach into what holds no quotes. -/
theorem takeQuoted_append_plain {q : Char} {s trail : List Char} (plain : q ∉ trail)
    (closed : IsClosed (q :: (takeQuoted q (s ++ trail)).1)) :
    takeQuoted q (s ++ trail) = ((takeQuoted q s).1, (takeQuoted q s).2 ++ trail) := by
  obtain ⟨mark, content, text⟩ := closed
  rw [encode, List.cons_append, List.cons.injEq] at text
  obtain ⟨rfl, text⟩ := text
  have whole := takeQuoted_append q (s ++ trail)
  have single := head?_takeQuoted q (s ++ trail)
  generalize taken : takeQuoted q (s ++ trail) = read at *
  obtain ⟨body, after⟩ := read
  obtain rfl : body = doubled q content ++ [q] := text
  -- The literal ends in the text before what is appended: its last quote is not in there.
  obtain ⟨rest, rfl, rfl⟩ :
      ∃ rest, s = doubled q content ++ [q] ++ rest ∧ after = rest ++ trail := by
    rcases List.append_eq_append_iff.mp whole with ⟨rest, same, left⟩ | ⟨more, same, left⟩
    · exact ⟨rest, same, left⟩
    · rcases List.eq_nil_or_concat more with rfl | ⟨front, d, rfl⟩
      · exact ⟨[], by simpa using same.symm, by simpa using left.symm⟩
      · rw [List.concat_eq_append, ← List.append_assoc] at same
        obtain rfl : q = d := by simpa using (List.append_inj' same rfl).2
        exact absurd (by simp [left]) plain
  have ahead : ∀ c ∈ rest.head?, c ≠ q := by
    intro c first
    refine single c ?_
    rw [List.head?_append, Option.mem_def.mp first]
    rfl
  rw [List.append_assoc, List.singleton_append, takeQuoted_doubled content ahead]

/-- Trimming takes plain segments off the end of a text whose literals are closed. -/
theorem segments_append_plain {s trail : List Char} (plain : ∀ c ∈ trail, isQuote c = false)
    (closed : ∀ text ∈ literals (s ++ trail), IsClosed text) :
    segments (s ++ trail) = segments s ++ trail.map .plain := by
  fun_induction segments s with
  | case1 =>
    have only := segments_plain_append plain []
    simpa [segments] using only
  | case2 q rest quote ih =>
    rw [List.cons_append] at closed ⊢
    rw [literals_quote quote, List.forall_mem_cons] at closed
    have absent : q ∉ trail := fun member => by simp [plain q member] at quote
    have taken := takeQuoted_append_plain absent closed.1
    rw [taken] at closed
    rw [segments_quote quote, taken, ih closed.2, List.cons_append]
  | case3 c rest unquoted ih =>
    have unquoted : isQuote c = false := by simpa using unquoted
    rw [List.cons_append, literals_plain unquoted] at closed
    rw [List.cons_append, segments_plain unquoted, ih closed, List.cons_append]

theorem literals_of_plain (front : List Char) :
    (front.map Segment.plain).filterMap Segment.literal? = [] := by
  rw [List.filterMap_map]
  exact List.filterMap_eq_nil_iff.mpr fun _ _ => rfl

/-! ### What is kept -/

namespace Trims

variable {lead core trail : List Char}

theorem isQuote_lead (trims : Trims lead core trail) : ∀ c ∈ lead, isQuote c = false :=
  fun c member => (isBlank_ne_special (trims.lead c member)).2

theorem isQuote_trail (trims : Trims lead core trail) : ∀ c ∈ trail, isQuote c = false := by
  intro c member
  rcases Bool.or_eq_true_iff.mp (trims.trail c member) with blank | semicolon
  · exact (isBlank_ne_special blank).2
  · obtain rfl := beq_iff_eq.mp semicolon
    rfl

theorem isBlank_last (trims : Trims lead core trail) : ∀ c ∈ core.getLast?, isBlank c = false :=
  fun c last => ((Bool.or_eq_false_iff ..).mp (trims.last c last)).1

/-- Where the literals are closed, trimming takes plain segments off both ends. -/
theorem segments_eq (trims : Trims lead core trail)
    (closed : ∀ text ∈ literals (lead ++ core ++ trail), IsClosed text) :
    segments (lead ++ core ++ trail) =
      lead.map .plain ++ segments core ++ trail.map .plain := by
  have front := segments_plain_append trims.isQuote_lead (core ++ trail)
  rw [List.append_assoc, literals, front, List.filterMap_append, literals_of_plain,
    List.nil_append] at closed
  rw [List.append_assoc, front, segments_append_plain trims.isQuote_trail closed,
    List.append_assoc]

end Trims

theorem exists_trims (s : List Char) :
    ∃ lead trail, s = lead ++ dropTerminators (trimStart s) ++ trail ∧
      Trims lead (dropTerminators (trimStart s)) trail := by
  let ends (c : Char) : Bool := isBlank c || c == ';'
  have back : dropTerminators (trimStart s) ++ ((trimStart s).reverse.takeWhile ends).reverse =
      trimStart s := by
    rw [dropTerminators, ← List.reverse_append, List.takeWhile_append_dropWhile,
      List.reverse_reverse]
  refine ⟨s.takeWhile isBlank, ((trimStart s).reverse.takeWhile ends).reverse, ?_, ?_,
    head?_dropTerminators s, getLast?_dropTerminators (trimStart s), ?_⟩
  · rw [List.append_assoc, back, trimStart, List.takeWhile_append_dropWhile]
  · exact List.all_eq_true.mp List.all_takeWhile
  · exact fun c member =>
      List.all_eq_true.mp List.all_takeWhile c (List.mem_reverse.mp member)

/-- A statement keeps its literals in its canonical layout. Trimmed at both ends, it keeps all its
characters but the white space outside literals, in their order; two of them stand next to each
other as before, or have one space between them where they had white space. -/
theorem normalize_changes_layout_only {s : List Char}
    (closed : ∀ text ∈ literals s, IsClosed text) :
    literals (normalize s) = literals s ∧
    ∃ lead core trail, s = lead ++ core ++ trail ∧ Trims lead core trail ∧
      segments s = lead.map .plain ++ segments core ++ trail.map .plain ∧
      visible (normalize s) = visible core ∧
      spaced (normalize s) = (spaced core).map tighten ∧
      (∀ part ∈ spaced core, (∀ c ∈ part.1, isLayout c = true) ∧ part.2.isSpace = false) ∧
      unspaced (spaced core) = core ∧ unspaced (spaced (normalize s)) = normalize s := by
  obtain ⟨lead, trail, whole, trims⟩ := exists_trims s
  have same := spaced_normalize s
  generalize dropTerminators (trimStart s) = core at whole trims same
  have parts : segments s = lead.map .plain ++ segments core ++ trail.map .plain := by
    rw [whole] at closed ⊢
    exact trims.segments_eq closed
  have kept : literals (normalize s) = literals s := by
    calc literals (normalize s)
        = (spaced core).filterMap fun part => part.2.literal? := by
          rw [literals_eq_spaced, same, List.filterMap_map]
          rfl
      _ = literals core := (literals_eq_spaced core).symm
      _ = literals s := by
          rw [literals, literals, parts, List.filterMap_append, List.filterMap_append,
            literals_of_plain, literals_of_plain, List.nil_append, List.append_nil]
  refine ⟨kept, lead, core, trail, whole, trims, parts, ?_, same,
    fun part member => of_mem_spacedFrom (by simp) member, unspaced_spaced trims.isBlank_last,
    unspaced_spaced (getLast?_normalize s)⟩
  rw [visible_eq_spaced, same, List.flatMap_map, visible_eq_spaced]
  rfl

/-- Blanks and a semicolon stay inside a literal with a doubled quote, and go at the end. -/
theorem normalize_changes_layout_only_doubled :
    let s := "\u00a0SET a\n\x0b= 'it''s  ;',\tb=\"\ty\" ; ;\n".toList
    (∀ text ∈ literals s, IsClosed text) ∧
      normalize s = "SET a = 'it''s  ;', b=\"\ty\"".toList ∧
      literals (normalize s) = ["'it''s  ;'".toList, "\"\ty\"".toList] ∧
      visible (normalize s) = "SETa='it''s  ;',b=\"\ty\"".toList := by
  intro s
  have read : literals s = ["'it''s  ;'".toList, "\"\ty\"".toList] := by decide +kernel
  have closed : ∀ text ∈ literals s, IsClosed text := by
    rw [read]
    intro text member
    rcases List.mem_cons.mp member with rfl | member
    · exact ⟨'\'', "it's  ;".toList, by decide +kernel⟩
    · obtain rfl := List.mem_singleton.mp member
      exact ⟨'"', "\ty".toList, by decide +kernel⟩
  obtain ⟨kept, _⟩ := normalize_changes_layout_only closed
  exact ⟨closed, by decide +kernel, kept.trans read, by decide +kernel⟩

end SqlToMongo.Sql
