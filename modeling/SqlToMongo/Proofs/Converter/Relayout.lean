import Mathlib
import SqlToMongo.Proofs.Converter.Runs
import SqlToMongo.Proofs.Statement.Layout

/-!
# Statements that differ in their layout

A statement may be laid out in many ways: blanks at its start, blanks and semicolons at its end, and
any white space where there is some between its words. None of this reaches what a statement is
converted to. Trimming looks at the ends of the text without regard to literals, and collapsing goes
by the quote that is open, so a change of layout is followed through both: where it is not trimmed
away it stands outside literals, and there any run of white space leaves the same single space.

## Main result

`layout_is_irrelevant`: texts that differ in their layout have one canonical layout, one key, and
are compiled to the same result.
-/

namespace SqlToMongo.Sql

open Text

/-! ### Changes of layout -/

/-- Reading from the start, literal by literal, the place between the two texts is reached outside
literals. -/
inductive Outside : List Char → List Char → Prop where
  | start {after : List Char} : Outside [] after
  | plain {c : Char} {before after : List Char} : isQuote c = false → Outside before after →
      Outside (c :: before) after
  | literal {q : Char} {body before after : List Char} : isQuote q = true →
      takeQuoted q (body ++ before ++ after) = (body, before ++ after) → Outside before after →
      Outside (q :: body ++ before) after

/-- A run of ASCII white space. -/
def LayoutRun (run : List Char) : Prop :=
  run ≠ [] ∧ ∀ c ∈ run, isLayout c = true

instance (run : List Char) : Decidable (LayoutRun run) :=
  inferInstanceAs (Decidable (run ≠ [] ∧ ∀ c ∈ run, isLayout c = true))

/-- The second text is the first one in another layout. -/
inductive Relayout : List Char → List Char → Prop where
  | canonical (s : List Char) : Relayout s (normalize s)
  | ends (s : List Char) {lead trail : List Char} : (∀ c ∈ lead, isBlank c = true) →
      (∀ c ∈ trail, (isBlank c || c == ';') = true) → Relayout s (lead ++ s ++ trail)
  | gap {c : Char} {before run after : List Char} : Outside before (c :: after) →
      isLayout c = true → LayoutRun run → Relayout (before ++ c :: after) (before ++ run ++ after)
  | trans {s t u : List Char} : Relayout s t → Relayout t u → Relayout s u

/-! ### Quotes up to a place -/

/-- Behind a literal that is closed no quote is open. -/
theorem openQuote_takeQuoted {q : Char} (quote : isQuote q = true) {s : List Char}
    (more : (takeQuoted q s).2 ≠ []) : (takeQuoted q s).1.foldl openQuote (some q) = none := by
  fun_induction takeQuoted q s with
  | case1 => exact absurd rfl more
  | case2 => exact absurd rfl more
  | case3 rest body after taken ih =>
    -- A doubled quote closes the literal and opens it again.
    rw [taken] at ih
    simpa [openQuote, quote] using ih more
  | case4 => simp [openQuote]
  | case5 c d rest different body after taken ih =>
    rw [taken] at ih
    simpa [openQuote, different] using ih more

theorem Outside.openQuote_eq_none {before after : List Char} (outside : Outside before after)
    (more : after ≠ []) : before.foldl openQuote none = none := by
  induction outside with
  | start => rfl
  | plain quote _ ih => simpa [openQuote, quote] using ih more
  | @literal q body before after quote taken _ ih =>
    have closed := openQuote_takeQuoted quote (s := body ++ before ++ after)
    rw [taken] at closed
    simp [openQuote, quote, closed (by simp [more]), ih more]

theorem Outside.plain_append {front before after : List Char}
    (plain : ∀ c ∈ front, isQuote c = false) (outside : Outside before after) :
    Outside (front ++ before) after := by
  induction front with
  | nil => exact outside
  | cons c front ih =>
    exact .plain (plain c (by simp)) (ih fun d member => plain d (List.mem_cons_of_mem _ member))

theorem openQuote_blanks {run : List Char} (blanks : ∀ c ∈ run, isBlank c = true) :
    run.foldl openQuote none = none := by
  induction run with
  | nil => rfl
  | cons c run ih =>
    have quote : isQuote c = false := (isBlank_ne_special (blanks c (by simp))).2
    simpa [openQuote, quote] using ih fun d member => blanks d (List.mem_cons_of_mem _ member)

/-! ### Collapsing up to a place -/

/-- What is written for the front of a text does not depend on what follows it. -/
theorem exists_collapse_append (quote : Option Char) (pending : Bool) (front : List Char) :
    ∃ written waits, ∀ rest, collapse quote pending (front ++ rest) =
      written ++ collapse (front.foldl openQuote quote) waits rest := by
  induction front generalizing quote pending with
  | nil => exact ⟨[], pending, fun _ => rfl⟩
  | cons c front ih =>
    by_cases space : quote = none ∧ isLayout c = true
    · obtain ⟨rfl, layout⟩ := space
      obtain ⟨written, waits, same⟩ := ih none true
      have quote : isQuote c = false := (isBlank_ne_special (isBlank_of_isLayout layout)).2
      refine ⟨written, waits, fun rest => ?_⟩
      rw [List.cons_append, collapse, if_pos ⟨rfl, layout⟩, same]
      simp [openQuote, quote]
    · obtain ⟨written, waits, same⟩ := ih (openQuote quote c) false
      refine ⟨(if pending then [' ', c] else [c]) ++ written, waits, fun rest => ?_⟩
      rw [List.cons_append, collapse, if_neg space, same]
      cases pending <;> rfl

/-- White space outside literals is only remembered. -/
theorem collapse_layoutRun {run : List Char} (isRun : LayoutRun run) (pending : Bool)
    (rest : List Char) : collapse none pending (run ++ rest) = collapse none true rest := by
  obtain ⟨nonempty, layout⟩ := isRun
  induction run generalizing pending with
  | nil => exact absurd rfl nonempty
  | cons c run ih =>
    rw [List.cons_append, collapse, if_pos ⟨rfl, layout c (by simp)⟩]
    cases run with
    | nil => rfl
    | cons d run => exact ih true (by simp) fun e member => layout e (List.mem_cons_of_mem _ member)

/-! ### Trimming -/

theorem LayoutRun.isBlank {run : List Char} (isRun : LayoutRun run) :
    ∀ c ∈ run, isBlank c = true :=
  fun c member => isBlank_of_isLayout (isRun.2 c member)

theorem trimStart_blanks_append {lead : List Char} (blanks : ∀ c ∈ lead, isBlank c = true)
    (s : List Char) : trimStart (lead ++ s) = trimStart s :=
  List.dropWhile_append_of_pos blanks

theorem trimStart_append {front : List Char} (visible : trimStart front ≠ []) (s : List Char) :
    trimStart (front ++ s) = trimStart front ++ s := by
  rw [trimStart, List.dropWhile_append, if_neg (by simpa [trimStart] using visible), trimStart]

theorem dropTerminators_append_terminators {trail : List Char}
    (ends : ∀ c ∈ trail, (isBlank c || c == ';') = true) (s : List Char) :
    dropTerminators (s ++ trail) = dropTerminators s := by
  rw [dropTerminators, List.reverse_append, List.dropWhile_append_of_pos, dropTerminators]
  exact fun c member => ends c (List.mem_reverse.mp member)

theorem dropTerminators_append {back : List Char} (kept : dropTerminators back ≠ [])
    (s : List Char) : dropTerminators (s ++ back) = s ++ dropTerminators back := by
  have kept : back.reverse.dropWhile (fun c => isBlank c || c == ';') ≠ [] := by
    simpa [dropTerminators] using kept
  rw [dropTerminators, List.reverse_append, List.dropWhile_append,
    if_neg (by simpa using kept), List.reverse_append, List.reverse_reverse, dropTerminators]

theorem isTerminator_of_dropTerminators {s : List Char} (dropped : dropTerminators s = []) :
    ∀ c ∈ s, (isBlank c || c == ';') = true := by
  rw [dropTerminators, List.reverse_eq_nil_iff, List.dropWhile_eq_nil_iff] at dropped
  exact fun c member => dropped c (List.mem_reverse.mpr member)

/-! ### The canonical layout -/

theorem normalize_ends (s : List Char) {lead trail : List Char}
    (blanks : ∀ c ∈ lead, isBlank c = true)
    (terminators : ∀ c ∈ trail, (isBlank c || c == ';') = true) :
    normalize (lead ++ s ++ trail) = normalize s := by
  rw [normalize_eq_collapse, normalize_eq_collapse, List.append_assoc,
    trimStart_blanks_append blanks]
  by_cases visible : trimStart s = []
  · -- Only blanks stand before what is dropped at the end.
    have nothing : ∀ c ∈ s, isBlank c = true := List.dropWhile_eq_nil_iff.mp visible
    have rest : ∀ c ∈ trimStart trail, (isBlank c || c == ';') = true :=
      fun c member => terminators c ((List.dropWhile_suffix _).mem member)
    have dropped := dropTerminators_append_terminators rest []
    rw [trimStart_blanks_append nothing, visible]
    rw [List.nil_append] at dropped
    rw [dropped]
  · rw [trimStart_append visible, dropTerminators_append_terminators terminators]

/-- Outside literals one run of white space is as good as another. -/
theorem exists_normalize_gap {before : List Char} (closed : before.foldl openQuote none = none)
    (after : List Char) :
    ∃ layout, ∀ run, LayoutRun run → normalize (before ++ run ++ after) = layout := by
  by_cases visible : trimStart before = []
  · -- The run is trimmed away at the start.
    have nothing : ∀ c ∈ before, isBlank c = true := List.dropWhile_eq_nil_iff.mp visible
    refine ⟨normalize after, fun run isRun => ?_⟩
    rw [normalize_eq_collapse, normalize_eq_collapse, List.append_assoc,
      trimStart_blanks_append nothing, trimStart_blanks_append isRun.isBlank]
  by_cases kept : dropTerminators after = []
  · -- It is trimmed away at the end, with all that follows it.
    have terminators := isTerminator_of_dropTerminators kept
    refine ⟨normalize before, fun run isRun => ?_⟩
    have lead : ∀ c ∈ ([] : List Char), isBlank c = true := by simp
    have trail : ∀ c ∈ run ++ after, (isBlank c || c == ';') = true :=
      List.forall_mem_append.mpr ⟨fun c member => by simp [isRun.isBlank c member], terminators⟩
    rw [List.append_assoc]
    exact normalize_ends before lead trail
  · have open_ : (trimStart before).foldl openQuote none = none := by
      have blanks := openQuote_blanks (List.all_eq_true.mp (List.all_takeWhile (l := before)))
      rw [← List.takeWhile_append_dropWhile (p := isBlank) (l := before), List.foldl_append,
        blanks] at closed
      exact closed
    obtain ⟨written, waits, same⟩ := exists_collapse_append none false (trimStart before)
    refine ⟨written ++ collapse none true (dropTerminators after), fun run isRun => ?_⟩
    rw [normalize_eq_collapse, List.append_assoc, trimStart_append visible, ← List.append_assoc,
      dropTerminators_append kept, List.append_assoc, same, open_, collapse_layoutRun isRun]

/-- Change by change, by induction on how the second text comes from the first. -/
theorem Relayout.normalize_eq {s t : List Char} (changed : Relayout s t) :
    normalize t = normalize s := by
  induction changed with
  | canonical s => exact normalize_normalize s
  | ends s blanks terminators => exact normalize_ends s blanks terminators
  | @gap c before run after outside layout isRun =>
    -- The character that is replaced is a run of its own.
    obtain ⟨same, normalized⟩ := exists_normalize_gap (outside.openQuote_eq_none (by simp)) after
    have single : LayoutRun [c] := ⟨by simp, by simpa using layout⟩
    have first := normalized [c] single
    rw [List.append_assoc, List.singleton_append] at first
    rw [normalized run isRun, first]
  | trans _ _ first second => exact second.trans first

end SqlToMongo.Sql

namespace SqlToMongo

open Sql Text

theorem conversionKey_congr (format : String) {s t : String}
    (same : normalize s.toList = normalize t.toList) :
    conversionKey format s = conversionKey format t := by
  unfold conversionKey keyText
  rw [same]

/-- Statements that differ in their layout have one canonical layout and one key in every format,
and are compiled to the same result. -/
theorem layout_is_irrelevant {s t : String} (changed : Relayout s.toList t.toList) :
    normalize t.toList = normalize s.toList ∧
    (∀ format, conversionKey format t = conversionKey format s) ∧
    Statement.compile t = Statement.compile s :=
  have same := changed.normalize_eq
  ⟨same, fun format => conversionKey_congr format same, compile_congr same⟩

/-- White space behind a literal with a doubled quote, then a no-break space and semicolons at the
ends. The blanks inside the literal stay. -/
theorem layout_is_irrelevant_literal :
    let s := "DELETE FROM t WHERE a='b''  c' OR d"
    let t := "\u00a0DELETE FROM t WHERE a='b''  c'\n\x0b OR d ;\t;"
    Relayout s.toList t.toList ∧
      normalize t.toList = "DELETE FROM t WHERE a='b''  c' OR d".toList ∧
      conversionKey "shell" t = conversionKey "shell" s ∧
      Statement.compile t = .ok (.deleteMany "t" [("$or", .list
        [.doc [("a", .doc [("$eq", .string "b''  c")])], .doc [("d", .bool true)]])]) := by
  intro s t
  let front := "DELETE FROM t WHERE a=".toList ++ ('\'' :: "b''  c'".toList ++ [])
  have place : Outside front (' ' :: "OR d".toList) :=
    .plain_append (by decide +kernel) (.literal (by decide) (by decide +kernel) .start)
  have changed : Relayout s.toList t.toList := by
    have run : LayoutRun "\n\x0b ".toList := by decide +kernel
    have first := Relayout.gap place (by decide) run
    have second := Relayout.ends (front ++ "\n\x0b ".toList ++ "OR d".toList)
      (show ∀ c ∈ "\u00a0".toList, isBlank c = true by decide +kernel)
      (show ∀ c ∈ " ;\t;".toList, (isBlank c || c == ';') = true by decide +kernel)
    have left : s.toList = front ++ ' ' :: "OR d".toList := by decide +kernel
    have right : t.toList = "\u00a0".toList ++ (front ++ "\n\x0b ".toList ++ "OR d".toList) ++
      " ;\t;".toList := by decide +kernel
    rw [left, right]
    exact first.trans second
  obtain ⟨layout, key, compiled⟩ := layout_is_irrelevant changed
  have canonical : normalize s.toList = s.toList := by decide +kernel
  have command : Statement.compile s = .ok (.deleteMany "t" [("$or", .list
      [.doc [("a", .doc [("$eq", .string "b''  c")])], .doc [("d", .bool true)]])]) := by cbv
  exact ⟨changed, layout.trans canonical, key "shell", compiled.trans command⟩

end SqlToMongo
