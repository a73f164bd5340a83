import SqlToMongo.Proofs.Statement.Aliases

/-!
# Projections as they are written

A field of a projection may be any item, alone or with an alias behind AS. The reader takes what
follows the first AS between gaps, so an item has no such word of its own; before an alias it does
not end in one either, since the gap that follows would complete it.

## Main result

`projection_of_writes`: every text of a list of fields is read as their names.
-/

namespace SqlToMongo.Statement

open Mongo Sql Text

namespace Surface

instance (s : List Char) : Decidable (Mentions [["as"]] s) :=
  decidable_of_iff _ (mentions_iff (by decide)).symm

/-- A field of a projection. No AS stands between gaps in its expression, nor before the gap that an
alias puts behind it. -/
structure ProjectionItem where
  expression : ItemText
  alternative : Option NameText
  silent : ¬Mentions [["as"]] (expression.chars ++ if alternative.isSome then [' '] else []) := by
    decide +kernel

/-- A field is projected under its alias, or else as it stands. -/
def ProjectionItem.entry (i : ProjectionItem) : String × Value :=
  (String.ofList ((i.alternative.map NameText.chars).getD i.expression.chars), .int 1)

/-- The texts of a field. -/
inductive ProjectionItem.Writes (i : ProjectionItem) : List Char → Prop where
  | bare : i.alternative = none → i.Writes i.expression.chars
  | aliased {name : NameText} {g word tail : List Char} : i.alternative = some name → Gap g →
      Spelled "as" word → Gap tail →
      i.Writes (i.expression.chars ++ g ++ word ++ tail ++ name.chars)

end Surface

open Surface

/-- It does not matter which gap completes a keyword at the end of a text. -/
theorem mentions_of_gap {k : String} (lettered : isLettered k = true) {s g g' : List Char}
    (gap : Gap g) (gap' : Gap g') (mentions : Mentions [[k]] (s ++ g)) :
    Mentions [[k]] (s ++ g') := by
  obtain ⟨ks, listed, pre, o, rest, whole, opening⟩ := mentions
  obtain rfl := List.mem_singleton.mp listed
  obtain ⟨before, word, tail, rfl, first, spelled, opening⟩ := opening.exists_cons
  cases opening with
  | gap behind =>
    -- The word is visible, so it ends inside the text, and what follows it starts with a gap.
    obtain ⟨more, inside, follows⟩ :
        ∃ more, s = pre ++ (before ++ word) ++ more ∧ tail ++ rest = more ++ g := by
      have cut : s ++ g = (pre ++ (before ++ word)) ++ (tail ++ rest) := by simpa using whole
      rcases List.append_eq_append_iff.mp cut with ⟨more, beyond, spaces⟩ | found
      · rcases List.eq_nil_or_concat more with rfl | ⟨more, c, rfl⟩
        · exact ⟨[], by simpa using beyond.symm, by simpa using spaces.symm⟩
        · have last := congrArg List.getLast? beyond
          rw [← List.append_assoc, List.getLast?_append_of_ne_nil _ (spelled.ne_nil lettered),
            List.concat_eq_append, ← List.append_assoc, List.getLast?_concat] at last
          have letter := spelled.isGap_eq_false lettered c (List.mem_of_getLast? last)
          have space := gap.2 c (by simp [spaces])
          simp [letter] at space
      · exact found
    cases more with
    | nil =>
      refine ⟨_, listed, pre, before ++ word ++ g', [], ?_, .keyword first spelled (.gap gap')⟩
      simp [inside]
    | cons c more =>
      obtain ⟨d, tail, rfl⟩ := List.exists_cons_of_ne_nil behind.1
      obtain ⟨rfl, _⟩ := List.cons.inj follows
      have single : Gap [d] := ⟨by simp, by simpa using behind.2 d (by simp)⟩
      refine ⟨_, listed, pre, before ++ word ++ [d], more ++ g', ?_,
        .keyword first spelled (.gap single)⟩
      simp [inside]

theorem afterAs?_eq_none {s : List Char} (silent : ¬Mentions [["as"]] s) : afterAs? s = none := by
  rw [Option.eq_none_iff_forall_ne_some]
  intro rest found
  rw [afterAs?_eq_cutBefore?] at found
  obtain ⟨⟨front, _⟩, cut, _⟩ := Option.map_eq_some_iff.mp found
  obtain ⟨back, whole, opened, _⟩ := cutBefore?_eq_some_iff.mp cut
  refine silent ((mentions_iff (by decide)).mpr ⟨_, List.mem_singleton_self _, back, ?_, ?_⟩)
  · exact (List.mem_tails ..).mpr ⟨front, whole.symm⟩
  · rw [opened]
    rfl

theorem projectedName_of_writes {i : ProjectionItem} {text : List Char} (writes : i.Writes text) :
    (projectedName text, Value.int 1) = i.entry := by
  have silent := i.silent
  cases writes with
  | bare absent =>
    rw [absent] at silent
    have alone : afterAs? i.expression.chars = none := afterAs?_eq_none (by simpa using silent)
    simp [projectedName, alone, ProjectionItem.entry, absent]
  | @aliased name g word tail present before spelled behind =>
    rw [present] at silent
    have space : Gap [' '] := by decide
    have named := (projectedName_alias_iff i.expression name before spelled behind).mpr
      fun mentions => silent (mentions_of_gap (by decide) before space mentions)
    rw [named, ProjectionItem.entry, present]
    rfl

theorem Surface.ProjectionItem.Writes.isItem {i : ProjectionItem} {text : List Char}
    (writes : i.Writes text) : IsItem text := by
  cases writes with
  | bare => exact i.expression.isItem
  | aliased _ before spelled behind => exact isItem_alias i.expression _ before spelled behind

/-- The names of a list of fields stand in the order in which they first occur, each of them once.
A `*` alone is no list: it takes all fields. -/
theorem projection_of_writes {projected : List ProjectionItem} {texts : List (List Char)}
    {fields : List Char} (written : List.Forall₂ ProjectionItem.Writes projected texts)
    (listed : Listed texts fields) (several : fields ≠ ['*']) :
    projection fields = .ofEntries (projected.map ProjectionItem.entry) ∧
      Document.Merges (projected.map ProjectionItem.entry) (projection fields) := by
  have entries : texts.map (fun item => (projectedName item, Value.int 1)) =
      projected.map ProjectionItem.entry := by
    rw [← List.forall₂_eq_eq_eq, List.forall₂_map_left_iff, List.forall₂_map_right_iff]
    exact written.flip.imp fun _ _ writes => projectedName_of_writes writes
  have isItem := isItem_of_written ProjectionItem.Writes.isItem written
  have read : projection fields = .ofEntries (projected.map ProjectionItem.entry) := by
    rw [projection, if_neg several, items_of_listed listed isItem, entries]
  refine ⟨read, ?_⟩
  rw [read]
  exact Document.merges_ofEntries _

/-- A call, an expression with an alias, and an alias that is the name of an earlier field. -/
example : projection "a ,COUNT(*),, price * 2 As\ttotal,b AS a".toList =
    [("a", .int 1), ("COUNT(*)", .int 1), ("total", .int 1)] := by
  rfl

end SqlToMongo.Statement
