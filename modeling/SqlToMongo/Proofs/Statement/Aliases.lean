import SqlToMongo.Proofs.Statement.Grouping

/-!
# Aliases

The two kinds of SELECT look for the alias of a field in different ways. A projection takes what
follows the first AS between gaps, wherever it stands. A group takes the last word of a call, and
only as a name of ASCII letters, digits and underscores. So an alias can be lost: in a projection to
an AS inside the expression, in a group to its own letters.

## Main result

`alias_names_iff`: which aliases name what their expressions contribute.
-/

namespace SqlToMongo.Statement

open Mongo Sql Text

namespace Surface

/-- What a field adds to a projection by itself. -/
def projected (item : List Char) : String × Value :=
  (projectedName item, .int 1)

/-- Among whatever fields it stands, the item puts this name into the projection, and no other. -/
def ProjectsAs (item : List Char) (name : String) : Prop :=
  ∀ before after fields, (∀ other ∈ before ++ after, IsItem other) →
    Listed (before ++ item :: after) fields →
    projection fields =
      .ofEntries (before.map projected ++ (name, .int 1) :: after.map projected)

/-- Among whatever fields it stands and whatever the keys are, the item puts this entry into the
group, and no other. -/
def GroupsAs (item : List Char) (entry : String × Value) : Prop :=
  ∀ before after fields grouping, (∀ other ∈ before ++ after, IsItem other) →
    Listed (before ++ item :: after) fields →
    ∃ id, groupStage fields grouping = .group id (.ofEntries
      (before.filterMap (contribution? (items grouping)) ++
        entry :: after.filterMap (contribution? (items grouping))))

/-! ### What an item contributes -/

theorem listed_singleton (item : List Char) : Listed [item] item := by
  have alone : Listed [item] ([] ++ item ++ []) := .last (@Part.item item [] [] rfl rfl)
  simpa using alone

theorem isItem_among {before after : List (List Char)} {item : List Char} (isItem : IsItem item)
    (others : ∀ other ∈ before ++ after, IsItem other) :
    ∀ other ∈ before ++ item :: after, IsItem other := by
  intro other member
  rcases List.mem_append.mp member with member | member
  · exact others other (List.mem_append_left _ member)
  · rcases List.mem_cons.mp member with rfl | member
    · exact isItem
    · exact others other (List.mem_append_right _ member)

/-- A `*` alone is the one field that a projection leaves out. -/
theorem projectsAs_iff {item : List Char} (isItem : IsItem item) (named : item ≠ ['*'])
    (name : String) : ProjectsAs item name ↔ projectedName item = name := by
  constructor
  · intro projects
    have alone := projects [] [] item (by simp) (listed_singleton item)
    have cut := items_of_listed (listed_singleton item) (by simpa using isItem)
    rw [projection, if_neg named, cut] at alone
    simpa [Document.ofEntries, Document.setAll, Document.set] using alone
  · rintro rfl before after fields others listed
    have cut := items_of_listed listed (isItem_among isItem others)
    have several : fields ≠ ['*'] := by
      rintro rfl
      have single : items ['*'] = [['*']] := by decide
      have inside : item ∈ [['*']] := by
        rw [← single, cut]
        simp
      exact named (List.mem_singleton.mp inside)
    rw [projection, if_neg several, cut, List.map_append, List.map_cons]
    rfl

theorem groupsAs_of_contribution? {item : List Char} (isItem : IsItem item)
    {entry : String × Value} (contributes : ∀ keys, contribution? keys item = some entry) :
    GroupsAs item entry := by
  intro before after fields grouping others listed
  have cut := items_of_listed listed (isItem_among isItem others)
  rw [groupStage, cut, List.filterMap_append, List.filterMap_cons_some (contributes _)]
  exact ⟨_, rfl⟩

theorem GroupsAs.contribution? {item : List Char} {entry : String × Value}
    (groups : GroupsAs item entry) (isItem : IsItem item) :
    Statement.contribution? [] item = some entry := by
  obtain ⟨id, stage⟩ := groups [] [] item [] (by simp) (listed_singleton item)
  have cut := items_of_listed (listed_singleton item) (by simpa using isItem)
  have none : items [] = [] := rfl
  simp only [groupStage, cut, none, List.filterMap_cons, List.filterMap_nil, List.nil_append,
    Stage.group.injEq] at stage
  split at stage
  next => simp [Document.ofEntries, Document.setAll, Document.set] at stage
  next b found =>
    rw [found]
    simpa [Document.ofEntries, Document.setAll, Document.set] using stage.2

end Surface

open Surface

/-! ### The first AS -/

variable {s x : List Char}

/-- Behind a gap no part of the text before it opens with AS that did not before. -/
theorem keywords?_append_eq_none (silent : keywords? ["as"] s = none) (words : ¬Spacing s)
    (gap : ∀ c ∈ s.getLast?, isGap c = true) (ahead : NoGapAhead x) :
    keywords? ["as"] (s ++ x) = none := by
  rw [Option.eq_none_iff_forall_ne_some]
  intro rest found
  obtain ⟨o, opening, whole, _⟩ := (keywords?_eq_some_iff (by decide)).mp found
  -- It would have to end inside the text, or go on behind a gap that is its first one.
  have early (back : List Char) : s ≠ o ++ back := by
    rintro rfl
    have found := opening.isSome_keywords? (by decide) back
    simp [silent] at found
  rcases List.append_eq_append_iff.mp whole with ⟨more, rfl, rfl⟩ | ⟨back, same, _⟩
  · cases more with
    | nil => exact early [] (by simp)
    | cons c more =>
      exact words (opening.isGap_of_cut (by decide) gap ⟨c, rfl, ahead c rfl⟩)
  · exact early back same

theorem afterAs?_eq_cutBefore? (s : List Char) :
    afterAs? s = (cutBefore? (keywords? ["as"]) s).map Prod.snd := by
  induction s with
  | nil => rfl
  | cons c s ih =>
    cases opened : keywords? ["as"] (c :: s) with
    | some rest => simp [afterAs?, cutBefore?, opened]
    | none => simp [afterAs?, cutBefore?, opened, ih, Function.comp_def]

theorem afterAs?_of_keywords? {rest : List Char} (found : keywords? ["as"] s = some rest) :
    afterAs? s = some rest := by
  rw [afterAs?_eq_cutBefore?, cutBefore?_of_accept found]
  rfl

/-- What follows the first AS goes beyond a text that mentions one. -/
theorem afterAs?_of_mentions (mentions : Mentions [["as"]] s)
    (gap : ∀ c ∈ s.getLast?, isGap c = true) (ahead : NoGapAhead x) :
    ∃ more, afterAs? (s ++ x) = some (more ++ x) := by
  obtain ⟨ks, listed, pre, o, rest, rfl, opening⟩ := mentions
  obtain rfl := List.mem_singleton.mp listed
  -- The search starts before the keywords and may find others on its way.
  induction pre with
  | nil =>
    obtain ⟨more, found⟩ :=
      Option.isSome_iff_exists.mp (opening.isSome_keywords? (by decide) rest)
    exact ⟨more, afterAs?_of_keywords? (keywords?_append (by decide) found ahead)⟩
  | cons d pre ih =>
    cases opened : keywords? ["as"] (d :: pre ++ o ++ rest) with
    | some more => exact ⟨more, afterAs?_of_keywords? (keywords?_append (by decide) opened ahead)⟩
    | none =>
      obtain ⟨g, word, tail, rfl, before, spelled, _⟩ := opening.exists_cons
      obtain ⟨c, letters, rfl⟩ := List.exists_cons_of_ne_nil (spelled.ne_nil (by decide))
      have letter := spelled.isGap_eq_false (by decide) c (by simp)
      have words : ¬Spacing (d :: pre ++ (g ++ c :: letters ++ tail) ++ rest) := fun gaps => by
        simp [gaps c (by simp)] at letter
      have later := keywords?_append_eq_none opened words gap ahead
      simp only [List.cons_append] at later ⊢
      rw [afterAs?, later]
      apply ih
      rwa [List.cons_append, List.cons_append, ← List.singleton_append,
        List.getLast?_append_of_ne_nil _ (by simp)] at gap

/-- What follows the only AS is the name behind it. -/
theorem afterAs?_of_silent {e g word tail : List Char} (name : NameText)
    (silent : ¬Mentions [["as"]] (e ++ g)) (visible : ∀ c ∈ e.getLast?, isGap c = false)
    (before : Gap g) (spelled : Spelled "as" word) (behind : Gap tail) :
    afterAs? (e ++ (g ++ (word ++ tail ++ name.chars))) = some name.chars := by
  have ahead : NoGapAhead name.chars := fun c first =>
    isGap_eq_false ((isBlank_ends_of_trim name.trimmed).1 c first)
  have found : keywords? ["as"] (g ++ (word ++ tail ++ name.chars)) = some name.chars :=
    (keywords?_eq_some_iff (by decide)).mpr
      ⟨g ++ word ++ tail, .keyword before spelled (.gap behind), by simp, ahead⟩
  -- The first place where AS opens is the gap before it: any earlier one would be a mention.
  have cut : cutBefore? (keywords? ["as"]) (e ++ (g ++ (word ++ tail ++ name.chars))) =
      some (e, name.chars) := by
    refine cutBefore?_eq_some_iff.mpr ⟨_, rfl, found, fun pre back whole nonempty => ?_⟩
    obtain ⟨c, member, stop⟩ := exists_visible_of_append nonempty fun c last =>
      visible c (whole ▸ last)
    rw [← List.append_assoc]
    apply keywords?_append_eq_none
    · rw [Option.eq_none_iff_forall_ne_some]
      intro rest found
      obtain ⟨o, opening, same, _⟩ := (keywords?_eq_some_iff (by decide)).mp found
      refine silent ⟨_, List.mem_singleton_self _, pre, o, rest, ?_, opening⟩
      rw [whole, List.append_assoc, same, List.append_assoc]
    · intro gaps
      simp [gaps c (List.mem_append_left g member)] at stop
    · intro c last
      rw [List.getLast?_append_of_ne_nil _ before.1] at last
      exact before.2 c (List.mem_of_getLast? last)
    · rw [List.append_assoc]
      exact spelled.noGapAhead (by decide) _
  rw [afterAs?_eq_cutBefore?, cut]
  rfl

section Aliased

variable (e : ItemText) (name : NameText) {g word tail : List Char}

/-- A trimmed text that ends in a word and the name is longer than the name. -/
theorem trim_ne_name (spelled : Spelled "as" word) (more : List Char) :
    trim (more ++ (word ++ tail ++ name.chars)) ≠ name.chars := by
  intro same
  have last : ∀ c ∈ (more ++ (word ++ tail ++ name.chars)).getLast?, isBlank c = false := by
    rw [← List.append_assoc, List.getLast?_append_of_ne_nil _ name.nonempty]
    exact (isBlank_ends_of_trim name.trimmed).2
  -- Only blanks at the front can go, since the name ends visibly.
  rw [trim_eq_trimStart last, trimStart] at same
  have whole := List.takeWhile_append_dropWhile (p := isBlank)
    (l := more ++ (word ++ tail ++ name.chars))
  -- What was taken off the front holds the word, but it is blank.
  rw [same, ← List.append_assoc, List.append_left_inj] at whole
  obtain ⟨c, letters, rfl⟩ := List.exists_cons_of_ne_nil (spelled.ne_nil (by decide))
  have letter := isBlank_of_isWordBreak (spelled.isWordBreak_eq_false (by decide) c (by simp))
  have inside : c ∈ more ++ (c :: letters ++ tail) := by simp
  rw [← whole] at inside
  exact absurd (List.mem_takeWhile_imp inside) (by simp [letter])

theorem projectedName_alias_iff (before : Gap g) (spelled : Spelled "as" word) (behind : Gap tail) :
    projectedName (e.chars ++ g ++ word ++ tail ++ name.chars) = String.ofList name.chars ↔
      ¬Mentions [["as"]] (e.chars ++ g) := by
  have ends := isBlank_ends_of_trim e.isItem.trimmed
  constructor
  · intro named mentions
    have gap : ∀ c ∈ (e.chars ++ g).getLast?, isGap c = true := by
      intro c last
      rw [List.getLast?_append_of_ne_nil _ before.1] at last
      exact before.2 c (List.mem_of_getLast? last)
    obtain ⟨more, after⟩ := afterAs?_of_mentions (x := word ++ tail ++ name.chars) mentions gap
      (by rw [List.append_assoc]; exact spelled.noGapAhead (by decide) _)
    simp only [← List.append_assoc] at after
    simp only [projectedName, after, Option.map_some, Option.getD_some, String.ofList_inj] at named
    exact trim_ne_name name spelled more (by simpa [List.append_assoc] using named)
  · intro silent
    have after := afterAs?_of_silent name silent (fun c last => isGap_eq_false (ends.2 c last))
      before spelled behind
    simp only [← List.append_assoc] at after
    simp only [projectedName, after, Option.map_some, Option.getD_some, name.trimmed]

/-! ### The last parenthesis -/

theorem isItem_alias (before : Gap g) (spelled : Spelled "as" word) (behind : Gap tail) :
    IsItem (e.chars ++ g ++ word ++ tail ++ name.chars) := by
  have opening : Opening ["as"] (g ++ word ++ tail) := .keyword before spelled (.gap behind)
  have whole : e.chars ++ g ++ word ++ tail ++ name.chars =
      e.chars ++ (g ++ word ++ tail ++ name.chars) := by simp
  rw [whole]
  apply e.isItem.append
  · exact List.forall_mem_append.mpr ⟨opening.unsplit (by decide), name.plain⟩
  · rw [List.getLast?_append_of_ne_nil _ name.nonempty]
    exact (isBlank_ends_of_trim name.trimmed).2

end Aliased

theorem eq_of_suffixes {c : Char} {whole back rest : List Char} (first : c :: back <:+ whole)
    (second : c :: rest <:+ whole) (once : c ∉ back) (once' : c ∉ rest) : back = rest := by
  rcases List.suffix_or_suffix_of_suffix first second with suffix | suffix
  · rcases List.suffix_cons_iff.mp suffix with same | inner
    · exact (List.cons.inj same).2
    · exact absurd (inner.mem List.mem_cons_self) once'
  · rcases List.suffix_cons_iff.mp suffix with same | inner
    · exact (List.cons.inj same).2.symm
    · exact absurd (inner.mem List.mem_cons_self) once

theorem isNameChar_of_ending {o : List Char} {name : NameText} {found : Option (List Char)}
    (opening : Opening ["as"] o) (ends : AliasEnding found (o ++ name.chars)) :
    ∀ d ∈ name.chars, isNameChar d = true := by
  -- The reader of keywords finds one name behind an AS, so both ways to cut the ending agree.
  have read (n : List Char) {o' : List Char} (opening : Opening ["as"] o')
      (first : ∀ c ∈ n.head?, isBlank c = false) : keywords? ["as"] (o' ++ n) = some n :=
    (keywords?_eq_some_iff (by decide)).mpr
      ⟨o', opening, rfl, fun c ahead => isGap_eq_false (first c ahead)⟩
  have own := read name.chars opening (isBlank_ends_of_trim name.trimmed).1
  generalize whole : o ++ name.chars = text at ends own
  cases ends with
  | missing => cases own
  | @present o' n opening' _ named =>
    have other := read n opening' fun c ahead =>
      isBlank_of_isNameChar (named c (List.mem_of_head? ahead))
    obtain rfl := Option.some.inj (own.symm.trans other)
    exact named

theorem Surface.Call.Writes.exists_front {c : Call} {text : List Char} (writes : c.Writes text) :
    ∃ front, text = front ++ [')'] := by
  cases writes with
  | parts => exact ⟨_, rfl⟩

/-- The alias of a call is its key in a group when all of it is read as a name. -/
theorem groupsAs_iff (e : ItemText) (name : NameText) {g word tail : List Char} (before : Gap g)
    (spelled : Spelled "as" word) (behind : Gap tail) {c : Call} {v : Value}
    (writes : c.Writes e.chars) (known : c.accumulator? = some v) :
    GroupsAs (e.chars ++ g ++ word ++ tail ++ name.chars) (String.ofList name.chars, v) ↔
      ∀ d ∈ name.chars, isNameChar d = true := by
  have opening : Opening ["as"] (g ++ word ++ tail) := .keyword before spelled (.gap behind)
  have isItem := isItem_alias e name before spelled behind
  have whole : e.chars ++ g ++ word ++ tail ++ name.chars =
      e.chars ++ (g ++ word ++ tail ++ name.chars) := by simp
  rw [whole] at isItem ⊢
  constructor
  · intro groups
    have contributes := groups.contribution? isItem
    obtain ⟨operator, _, rfl⟩ := Option.map_eq_some_iff.mp known
    rw [Statement.contribution?] at contributes
    -- An item that is read as no call can only store the number 1.
    split at contributes
    next call read =>
      obtain ⟨front, shape⟩ := writes.exists_front
      rw [shape, List.append_assoc, List.singleton_append] at read
      have plain : ')' ∉ g ++ word ++ tail ++ name.chars := by
        rw [List.mem_append, not_or]
        exact ⟨fun member => (opening.unsplit (by decide) _ member).2.2.2 rfl,
          fun member => (name.plain _ member).2.2.2 rfl⟩
      obtain ⟨front', ending, same, _, ends⟩ := AggregateCall.exists_of_read? read
      -- Neither ending has a parenthesis, so both follow the last one.
      obtain rfl := eq_of_suffixes (List.suffix_append front _) (same ▸ List.suffix_append front' _)
        plain fun member => (ends.unsplit _ member).2.2.2 rfl
      exact isNameChar_of_ending opening ends
    next => simp at contributes
  · intro named
    refine groupsAs_of_contribution? isItem fun keys => ?_
    have stored := stored?_call c (some ⟨name.chars, name.nonempty, named⟩)
    rw [known] at stored
    have read := AggregateCall.read?_of_writes writes (.present opening name.nonempty named)
    rw [Statement.contribution?, read]
    exact stored

/-- An alias names what its expression adds to a projection exactly when no AS stands between gaps
before it, and the accumulator of a call in a group exactly when it is made of ASCII letters, digits
and underscores, with the two letters that fold to them. -/
theorem alias_names_iff (e : ItemText) (name : NameText) {g word tail : List Char} (before : Gap g)
    (spelled : Spelled "as" word) (behind : Gap tail) :
    let item := e.chars ++ g ++ word ++ tail ++ name.chars
    let key := String.ofList name.chars
    (ProjectsAs item key ↔ ¬Mentions [["as"]] (e.chars ++ g)) ∧
      ∀ (c : Call) (v : Value), c.Writes e.chars → c.accumulator? = some v →
        (GroupsAs item (key, v) ↔ ∀ d ∈ name.chars, isNameChar d = true) := by
  intro item key
  have named : item ≠ ['*'] := by
    intro single
    have short := congrArg List.length single
    have first := List.length_pos_of_ne_nil e.isItem.nonempty
    have last := List.length_pos_of_ne_nil name.nonempty
    simp only [item, List.length_append, List.length_singleton] at short
    omega
  refine ⟨?_, fun c v writes known => groupsAs_iff e name before spelled behind writes known⟩
  rw [projectsAs_iff (isItem_alias e name before spelled behind) named]
  exact projectedName_alias_iff e name before spelled behind

/-- An aggregate keeps its alias on both paths. -/
theorem alias_names_iff_sum :
    let item := "SUM( v )".toList ++ " ".toList ++ "As".toList ++ "\t".toList ++ "total_1".toList
    ProjectsAs item "total_1" ∧
      GroupsAs item ("total_1", .doc [("$sum", .string "$v")]) := by
  intro item
  let e : ItemText := { chars := "SUM( v )".toList }
  let name : NameText := { chars := "total_1".toList }
  let c : Call := ⟨{ chars := "SUM".toList }, { chars := "v".toList }⟩
  have silent : ¬Mentions [["as"]] (e.chars ++ " ".toList) := by
    rw [mentions_iff (by decide)]
    decide +kernel
  have writes : c.Writes e.chars := by
    have shape : e.chars = "SUM".toList ++ [] ++ '(' :: (" ".toList ++ "v".toList ++ " ".toList) ++
        [')'] := by decide +kernel
    rw [shape]
    exact .parts (by simp [Spacing]) (by decide +kernel) (by decide +kernel)
  obtain ⟨projects, groups⟩ := @alias_names_iff e name " ".toList "As".toList "\t".toList
    (by decide +kernel) (by decide +kernel) (by decide +kernel)
  exact ⟨projects.mpr silent, (groups c _ writes rfl).mpr (by decide +kernel)⟩

/-- A projection loses the alias of a CAST, and a group an alias with an accent. -/
theorem alias_names_fails :
    IsItem "CAST(a AS int)".toList ∧ ¬ProjectsAs "CAST(a AS int) AS b".toList "b" ∧
      projection "CAST(a AS int) AS b".toList = [("int) AS b", .int 1)] ∧
      ¬GroupsAs "SUM(v) AS année".toList ("année", .doc [("$sum", .string "$v")]) ∧
      (groupStage "SUM(v) AS année".toList "k".toList).toDocument = [("$group", .doc [
        ("_id", .doc [("k", .string "$k")]), ("SUM(v) AS année", .int 1)])] := by
  refine ⟨by decide +kernel, ?_, by rfl, ?_, by rfl⟩
  · rw [projectsAs_iff (by decide +kernel) (by decide +kernel)]
    decide +kernel
  · intro groups
    have contributes := groups.contribution? (by decide +kernel)
    have whole : Statement.contribution? [] "SUM(v) AS année".toList =
        some ("SUM(v) AS année", .int 1) := by rfl
    rw [whole] at contributes
    simp at contributes

end SqlToMongo.Statement
