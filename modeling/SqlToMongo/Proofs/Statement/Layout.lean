import SqlToMongo.Proofs.Statement.Keywords
import SqlToMongo.Sql.Layout

/-!
# Texts in canonical layout

Collapsing the layout of a text passes over some chunks of it unchanged: visible characters,
literals that are closed, and a single space before either of them. A text made of such chunks is
its own canonical layout. Whatever the text, its canonical layout has no blank at its ends and
nothing left to collapse.

## Main results

`normalize_eq_self`: a settled text is its own canonical layout.
`normalize_normalize`: so is every canonical layout.
-/

namespace SqlToMongo.Sql

open Text

theorem isLayout_eq_false {c : Char} (visible : isBlank c = false) : isLayout c = false := by
  rw [Bool.eq_false_iff]
  intro layout
  simp [isBlank_of_isLayout layout] at visible

/-! ### Chunks that stay -/

/-- Outside literals, collapsing leaves the chunk as it is. -/
def Settled (chunk : List Char) : Prop :=
  ∀ rest, collapse none false (chunk ++ rest) = chunk ++ collapse none false rest

theorem Settled.append {front back : List Char} (first : Settled front) (second : Settled back) :
    Settled (front ++ back) := by
  intro rest
  rw [List.append_assoc, first, second, List.append_assoc]

theorem settled_visible {chunk : List Char}
    (visible : ∀ c ∈ chunk, isLayout c = false ∧ isQuote c = false) : Settled chunk := by
  intro rest
  induction chunk with
  | nil => rfl
  | cons c chunk ih =>
    obtain ⟨layout, quote⟩ := visible c (by simp)
    have inner := ih fun d member => visible d (List.mem_cons_of_mem _ member)
    simp [collapse, layout, openQuote, quote, inner]

/-- Inside a literal nothing is collapsed. -/
theorem collapse_quoted {q : Char} {content : List Char} (closed : q ∉ content)
    (rest : List Char) :
    collapse (some q) false (content ++ q :: rest) = content ++ q :: collapse none false rest := by
  induction content with
  | nil => simp [collapse, openQuote]
  | cons c content ih =>
    have different : c ≠ q := fun same => closed (by simp [same])
    have inner := ih fun member => closed (List.mem_cons_of_mem _ member)
    simp [collapse, openQuote, different, inner]

theorem isLayout_of_isQuote {c : Char} (quote : isQuote c = true) : isLayout c = false := by
  simp only [isQuote, Bool.or_eq_true, beq_iff_eq] at quote
  rcases quote with rfl | rfl <;> decide

theorem settled_quoted {q : Char} {content : List Char} (quote : isQuote q = true)
    (closed : q ∉ content) : Settled (q :: content ++ [q]) := by
  intro rest
  have inner := collapse_quoted closed rest
  simp [collapse, isLayout_of_isQuote quote, openQuote, quote, inner]

/-- One space stays before what is visible. -/
theorem Settled.space {chunk : List Char} (settled : Settled chunk) {c : Char}
    (first : c ∈ chunk.head?) (visible : isLayout c = false) : Settled (' ' :: chunk) := by
  intro rest
  cases chunk with
  | nil => simp at first
  | cons d chunk =>
    obtain rfl : d = c := by simpa using first
    have inner := settled rest
    have pending : collapse none true (d :: (chunk ++ rest)) =
        ' ' :: collapse none false (d :: (chunk ++ rest)) := by
      simp [collapse, visible]
    have space : isLayout ' ' = true := by decide
    simp only [List.cons_append] at inner ⊢
    rw [collapse, if_pos ⟨rfl, space⟩, pending, inner]

theorem trimStart_eq_self {s : List Char} (first : ∀ c ∈ s.head?, isBlank c = false) :
    trimStart s = s := by
  cases s with
  | nil => rfl
  | cons c s => simp [trimStart, first c (by simp)]

theorem dropTerminators_eq_self {s : List Char}
    (last : ∀ c ∈ s.getLast?, (isBlank c || c == ';') = false) : dropTerminators s = s := by
  rw [← List.head?_reverse] at last
  unfold dropTerminators
  cases reversed : s.reverse with
  | nil => simpa using reversed.symm
  | cons c rest =>
    rw [List.dropWhile_cons_of_neg (by simpa using last c (by simp [reversed])), ← reversed,
      List.reverse_reverse]

/-- There is no layout to drop before what does not start with a blank. -/
theorem collapseLayout_eq_collapse {s : List Char} (first : ∀ c ∈ s.head?, isBlank c = false) :
    collapseLayout s = collapse none false s := by
  cases s with
  | nil => rfl
  | cons c s =>
    have visible : isLayout c = false := isLayout_eq_false (first c (by simp))
    simp [collapseLayout, visible]

/-- A settled text is its own canonical layout. -/
theorem normalize_eq_self {s : List Char} (settled : Settled s)
    (first : ∀ c ∈ s.head?, isBlank c = false)
    (last : ∀ c ∈ s.getLast?, (isBlank c || c == ';') = false) : normalize s = s := by
  have collapsed := settled []
  rw [normalize, trimStart_eq_self first, dropTerminators_eq_self last,
    collapseLayout_eq_collapse first]
  simpa [collapse] using collapsed

/-! ### What collapsing is applied to -/

theorem dropTerminators_isPrefix (s : List Char) : dropTerminators s <+: s := by
  have back := List.reverse_prefix.mpr
    (List.dropWhile_suffix (fun c => isBlank c || c == ';') (l := s.reverse))
  rwa [List.reverse_reverse] at back

theorem head?_dropTerminators (s : List Char) :
    ∀ c ∈ (dropTerminators (trimStart s)).head?, isBlank c = false := by
  intro c first
  obtain ⟨rest, whole⟩ := dropTerminators_isPrefix (trimStart s)
  have start : c ∈ (trimStart s).head? := by
    rw [← whole, List.head?_append, Option.mem_def.mp first]
    rfl
  exact not_of_mem_head?_dropWhile start

theorem getLast?_dropTerminators (s : List Char) :
    ∀ c ∈ (dropTerminators s).getLast?, (isBlank c || c == ';') = false := by
  intro c last
  rw [dropTerminators, List.getLast?_reverse] at last
  exact not_of_mem_head?_dropWhile last

/-- Trimming leaves no layout at the start, so all of what it leaves is collapsed. -/
theorem normalize_eq_collapse (s : List Char) :
    normalize s = collapse none false (dropTerminators (trimStart s)) :=
  collapseLayout_eq_collapse (head?_dropTerminators s)

/-! ### The end of a text -/

theorem collapse_append_singleton {c : Char} (visible : isLayout c = false) (front : List Char)
    (quote : Option Char) (pending : Bool) :
    ∃ kept, collapse quote pending (front ++ [c]) = kept ++ [c] := by
  induction front generalizing quote pending with
  | nil =>
    cases pending with
    | true => exact ⟨[' '], by simp [collapse, visible]⟩
    | false => exact ⟨[], by simp [collapse, visible]⟩
  | cons d front ih =>
    rw [List.cons_append, collapse]
    split
    · exact ih none true
    · obtain ⟨kept, same⟩ := ih (openQuote quote d) false
      rw [same]
      split
      · exact ⟨' ' :: d :: kept, rfl⟩
      · exact ⟨d :: kept, rfl⟩

/-- The last character stays, and it is neither a blank nor a semicolon. -/
theorem terminator_getLast?_normalize (s : List Char) :
    ∀ c ∈ (normalize s).getLast?, (isBlank c || c == ';') = false := by
  intro c last
  have ends := getLast?_dropTerminators (trimStart s)
  rw [normalize_eq_collapse] at last
  rcases List.eq_nil_or_concat (dropTerminators (trimStart s)) with empty | ⟨front, d, whole⟩
  · simp [empty, collapse] at last
  · have stop : (isBlank d || d == ';') = false := ends d (by simp [whole])
    have layout : isLayout d = false := isLayout_eq_false ((Bool.or_eq_false_iff ..).mp stop).1
    obtain ⟨kept, same⟩ := collapse_append_singleton layout front none false
    rw [whole, List.concat_eq_append, same] at last
    obtain rfl : d = c := by simpa using last
    exact stop

/-- A canonical layout does not end in a blank. -/
theorem getLast?_normalize (s : List Char) :
    ∀ c ∈ (normalize s).getLast?, isBlank c = false := fun c last =>
  ((Bool.or_eq_false_iff ..).mp (terminator_getLast?_normalize s c last)).1

/-! ### Collapsing twice -/

/-- What is collapsed has nothing left to collapse. White space is only pending outside
literals. -/
theorem collapse_collapse {quote : Option Char} {pending : Bool}
    (outside : pending = true → quote = none) (s : List Char) :
    collapse quote false (collapse quote pending s) = collapse quote pending s := by
  induction s generalizing quote pending with
  | nil => rfl
  | cons c s ih =>
    have later := @ih (openQuote quote c) false (by simp)
    rw [collapse]
    split
    next here =>
      obtain ⟨rfl, _⟩ := here
      exact ih (fun _ => rfl)
    next here =>
      split
      next waits =>
        -- The space that is written is white space again, and the character after it is not.
        obtain rfl := outside waits
        have visible : isLayout c = false := by simpa using here
        have space : isLayout ' ' = true := by decide
        rw [collapse, if_pos ⟨rfl, space⟩, collapse, if_neg here, if_pos rfl, later]
      next => rw [collapse, if_neg here, if_neg (by simp), later]

theorem head?_normalize (s : List Char) : ∀ c ∈ (normalize s).head?, isBlank c = false := by
  intro c first
  have start := head?_dropTerminators s
  rw [normalize_eq_collapse] at first
  cases shape : dropTerminators (trimStart s) with
  | nil => simp [shape, collapse] at first
  | cons d rest =>
    have visible : isBlank d = false := start d (by simp [shape])
    have layout : isLayout d = false := isLayout_eq_false visible
    rw [shape, collapse, if_neg (by simp [layout]), if_neg (by simp)] at first
    obtain rfl : d = c := by simpa using first
    exact visible

/-- A canonical layout is its own. -/
theorem normalize_normalize (s : List Char) : normalize (normalize s) = normalize s := by
  rw [normalize_eq_collapse (normalize s), trimStart_eq_self (head?_normalize s),
    dropTerminators_eq_self (terminator_getLast?_normalize s), normalize_eq_collapse s,
    collapse_collapse (by simp)]

end SqlToMongo.Sql
