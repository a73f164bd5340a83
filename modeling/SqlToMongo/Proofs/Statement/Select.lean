import SqlToMongo.Proofs.Statement.Keywords
import SqlToMongo.Statement.Select

/-!
# SELECT as it is written

The parts of a SELECT, the texts that write them and the command they stand for. Each part is
followed by keywords that it does not contain as words of its own, so every search for the end of a
part stops exactly there. The search goes on through all later clauses, present or not: a reader of
clauses waits for the opening words of each clause that may still come.

## Main result

`compileSelect_of_writes`: every text of a SELECT compiles to the command of its parts.
-/

namespace SqlToMongo.Statement

open Mongo Sql Text

namespace Surface

/-- The words that open the clauses after a condition. -/
def clauseWords : List String :=
  ["group", "having", "order", "limit", "offset"]

/-- The text of a clause: it has none of the words that open a later one. -/
abbrev ClauseText := FreeText clauseWords

/-- A run of characters other than gaps and opening parentheses, without blanks at its ends. -/
structure CollectionName where
  chars : List Char
  nonempty : chars ≠ [] := by decide +kernel
  trimmed : trim chars = chars := by decide +kernel
  unbroken : ∀ c ∈ chars, isGap c = false ∧ c ≠ '(' := by decide +kernel

/-- A number of LIMIT or OFFSET, below `2^63`. -/
structure Count where
  digits : List Char
  nonempty : digits ≠ [] := by decide +kernel
  decimal : ∀ c ∈ digits, c.isDigit = true := by decide +kernel
  bounded : Numeral.natOf digits < 9223372036854775808 := by decide +kernel

def Count.value (n : Count) : Int := Numeral.natOf n.digits

/-- A GROUP BY with its HAVING. -/
structure Grouping where
  keys : ClauseText
  having : Option ClauseText

/-- `LIMIT count` or `LIMIT count, skip`. -/
structure Limit where
  count : Count
  skip : Option Count

/-- The parts of a SELECT. -/
structure Select where
  fields : FreeText ["from"]
  collection : CollectionName
  condition : Option ClauseText
  grouping : Option Grouping
  ordering : Option ClauseText
  limit : Option Limit
  offset : Option Count

/-! ### What the parts stand for -/

namespace Select

variable (q : Select)

/-- The documents to skip: an OFFSET counts before the second number of a LIMIT. -/
def skip : Option Int :=
  match q.offset with
  | some offset => some offset.value
  | none => q.limit.bind fun limit => limit.skip.map Count.value

/-- Without GROUP BY a query, which skips documents only under a LIMIT; with GROUP BY a pipeline. -/
def command : Command :=
  match q.grouping with
  | none =>
    .find {
      collection := String.ofList q.collection.chars
      filter := match q.condition with
        | some condition => filterOf condition.chars
        | none => []
      projection := projection q.fields.chars
      sort := q.ordering.map fun ordering => sortKeys ordering.chars
      skip := if q.limit.isSome then q.skip else none
      limit := q.limit.map fun limit => limit.count.value }
  | some grouping =>
    .aggregate (String.ofList q.collection.chars) <|
      (q.condition.map fun condition => Stage.filter (filterOf condition.chars)).toList ++
      [groupStage q.fields.chars grouping.keys.chars] ++
      (grouping.having.map fun having => Stage.filter (filterOf having.chars)).toList ++
      (q.ordering.map fun ordering => Stage.sort (sortKeys ordering.chars)).toList ++
      (q.skip.map Stage.skip).toList ++
      (q.limit.map fun limit => Stage.limit limit.count.value).toList

end Select

/-! ### Texts -/

/-- The texts of a clause that may be missing: its keywords and its text, or nothing. -/
inductive ClauseWritten (opening : List String) : Option ClauseText → List Char → Prop where
  | missing : ClauseWritten opening none []
  | present {o : List Char} (t : ClauseText) : Opening opening o →
      ClauseWritten opening (some t) (o ++ t.chars)

/-- The texts of a LIMIT: gaps may stand around the comma. -/
inductive LimitWritten : Option Limit → List Char → Prop where
  | missing : LimitWritten none []
  | single {o : List Char} (n : Count) : Opening ["limit"] o →
      LimitWritten (some ⟨n, none⟩) (o ++ n.digits)
  | pair {o before after : List Char} (n m : Count) : Opening ["limit"] o →
      (∀ c ∈ before, isGap c = true) → (∀ c ∈ after, isGap c = true) →
      LimitWritten (some ⟨n, some m⟩) (o ++ n.digits ++ before ++ ',' :: after ++ m.digits)

inductive OffsetWritten : Option Count → List Char → Prop where
  | missing : OffsetWritten none []
  | present {o : List Char} (n : Count) : Opening ["offset"] o →
      OffsetWritten (some n) (o ++ n.digits)

/-- The texts of a SELECT, part after part. -/
inductive Select.Writes (q : Select) : List Char → Prop where
  | parts {select gap source condition grouping having ordering limit offset : List Char} :
      Spelled "select" select → Gap gap → Opening ["from"] source →
      ClauseWritten ["where"] q.condition condition →
      ClauseWritten ["group", "by"] (q.grouping.map (·.keys)) grouping →
      ClauseWritten ["having"] (q.grouping.bind (·.having)) having →
      ClauseWritten ["order", "by"] q.ordering ordering →
      LimitWritten q.limit limit → OffsetWritten q.offset offset →
      q.Writes (select ++ gap ++ q.fields.chars ++ source ++ q.collection.chars ++ condition ++
        grouping ++ having ++ ordering ++ limit ++ offset)

end Surface

open Surface

/-! ### Counts -/

theorem isDigit_of_isGap {c : Char} (gap : isGap c = true) : c.isDigit = false := by
  simp only [isGap, Bool.or_eq_true, beq_iff_eq] at gap
  rcases gap with (((rfl | rfl) | rfl) | rfl) | rfl <;> decide

theorem isGap_of_isDigit {c : Char} (digit : c.isDigit = true) : isGap c = false := by
  rw [Bool.eq_false_iff]
  intro gap
  simp [isDigit_of_isGap gap] at digit

namespace Surface

/-- No gap stands before the digits of a number. -/
theorem Count.noGapAhead (n : Count) (rest : List Char) : NoGapAhead (n.digits ++ rest) := by
  intro c first
  rw [List.head?_append_of_ne_nil _ n.nonempty] at first
  exact isGap_of_isDigit (n.decimal c (List.mem_of_head? first))

/-- A number ends where a gap follows. -/
theorem Count.run? (n : Count) {rest : List Char} (next : ∀ c ∈ rest.head?, c.isDigit = false) :
    run? Char.isDigit (n.digits ++ rest) = some (n.digits, rest) :=
  run?_eq_some_iff.mpr ⟨rfl, n.nonempty, n.decimal, next⟩

end Surface

namespace Counts

theorem awaits_offset? : Awaits ["offset"] offset? := by
  intro s a found
  unfold offset? at found
  split at found
  next body opened => exact .inr ⟨"offset", by simp, startsWith_of_keywords? (by decide) opened⟩
  next => exact .inl (List.isEmpty_iff.mp (Option.ite_none_right_eq_some.mp found).1)

theorem awaits_read? : Awaits ["limit", "offset"] read? := by
  intro s a found
  unfold read? at found
  split at found
  next body opened => exact .inr ⟨"limit", by simp, startsWith_of_keywords? (by decide) opened⟩
  next =>
    obtain ⟨offset, found, _⟩ := Option.map_eq_some_iff.mp found
    exact awaits_offset?.mono (by simp) s offset found

theorem offset?_of_written {offset : Option Count} {s : List Char}
    (written : OffsetWritten offset s) : offset? s = some (offset.map Count.digits) := by
  cases written with
  | missing => rfl
  | present n opening =>
    have opened : keywords? ["offset"] (_ ++ n.digits) = some n.digits :=
      (keywords?_eq_some_iff (by decide)).mpr
        ⟨_, opening, rfl, by simpa using n.noGapAhead []⟩
    have digits : run? Char.isDigit n.digits = some (n.digits, []) :=
      run?_eq_some_iff.mpr ⟨by simp, n.nonempty, n.decimal, by simp⟩
    simp [offset?, opened, digits]

theorem isDigit_ahead {offset : Option Count} {s : List Char} (written : OffsetWritten offset s) :
    ∀ c ∈ s.head?, c.isDigit = false :=
  fun c first => isDigit_of_isGap
    (awaits_offset?.isGap_ahead (offset?_of_written written) c first)

/-- What may follow a LIMIT does not go on with a comma. -/
theorem skip?_of_written {offset : Option Count} {s : List Char}
    (written : OffsetWritten offset s) : skip? s = none := by
  cases written with
  | missing => rfl
  | present n opening =>
    obtain ⟨g, word, tail, rfl, gap, spelled, _⟩ := opening.exists_cons
    have ahead := spelled.noGapAhead (by decide) (tail ++ n.digits)
    have dropped := (takeWhile_run isGap g _ gap.2 ahead).2
    obtain ⟨c, word, rfl⟩ := List.exists_cons_of_ne_nil (spelled.ne_nil (by decide))
    have letter : fold c = 'o' := (List.cons.inj spelled).1
    have notComma : c ≠ ',' := by
      rintro rfl
      exact absurd letter (by decide)
    rw [skip?, List.append_assoc, List.append_assoc, dropped]
    simp [notComma]

theorem read?_of_written {limit : Option Limit} {offset : Option Count} {l s : List Char}
    (limitWritten : LimitWritten limit l) (offsetWritten : OffsetWritten offset s) :
    read? (l ++ s) = some ⟨limit.map (·.count.digits),
      limit.bind fun limit => limit.skip.map Count.digits, offset.map Count.digits⟩ := by
  have read := offset?_of_written offsetWritten
  have digits := isDigit_ahead offsetWritten
  cases limitWritten with
  | missing =>
    -- An OFFSET alone is not taken for a LIMIT.
    have closed : keywords? ["limit"] s = none := by
      rw [Option.eq_none_iff_forall_ne_some]
      intro rest found
      have starts := startsWith_of_keywords? (by decide) found
      rcases awaits_offset? s _ read with rfl | ⟨k, member, other⟩
      · simp [keywords?, gap?] at found
      · obtain rfl := List.mem_singleton.mp member
        exact absurd (starts.2.unique other.2) (by decide)
    simp [Counts.read?, closed, read]
  | single n opening =>
    have opened := (keywords?_eq_some_iff (by decide)).mpr
      ⟨_, opening, List.append_assoc .., n.noGapAhead s⟩
    simp only [Counts.read?, opened, Option.bind_eq_bind, n.run? digits, Option.bind_some,
      skip?_of_written offsetWritten, read]
    rfl
  | @pair o before after n m opening gapsBefore gapsAfter =>
    have opened := (keywords?_eq_some_iff (by decide)).mpr
      ⟨o, opening, rfl, n.noGapAhead (before ++ ',' :: (after ++ m.digits ++ s))⟩
    have first : run? Char.isDigit (n.digits ++ (before ++ ',' :: (after ++ m.digits ++ s))) =
        some (n.digits, before ++ ',' :: (after ++ m.digits ++ s)) := by
      apply n.run?
      intro c first
      cases before with
      | nil =>
        obtain rfl : ',' = c := by simpa using first
        decide
      | cons d before =>
        obtain rfl : d = c := by simpa using first
        exact isDigit_of_isGap (gapsBefore d (by simp))
    have second : skip? (before ++ ',' :: (after ++ m.digits ++ s)) = some (m.digits, s) := by
      rw [skip?, (takeWhile_run isGap before _ gapsBefore (by simp; decide)).2]
      show run? Char.isDigit ((after ++ m.digits ++ s).dropWhile isGap) = some (m.digits, s)
      rw [List.append_assoc,
        (takeWhile_run isGap after _ gapsAfter (m.noGapAhead s)).2]
      exact m.run? digits
    have shape : o ++ n.digits ++ before ++ ',' :: after ++ m.digits ++ s =
        o ++ (n.digits ++ (before ++ ',' :: (after ++ m.digits ++ s))) := by simp
    rw [shape]
    simp only [Counts.read?, opened, Option.bind_eq_bind, first, Option.bind_some, second, read]
    rfl

end Counts

/-! ### Clauses -/

/-- The text of a clause, empty when it is missing. -/
def Surface.clauseChars : Option ClauseText → List Char
  | some t => t.chars
  | none => []

@[simp]
theorem Surface.clauseChars_some (t : ClauseText) : clauseChars (some t) = t.chars := rfl

theorem Surface.trim_clauseChars (clause : Option ClauseText) :
    trim (clauseChars clause) = clauseChars clause := by
  cases clause with
  | none => rfl
  | some t => exact t.trimmed

theorem Surface.isEmpty_clauseChars (clause : Option ClauseText) :
    (clauseChars clause).isEmpty = clause.isNone := by
  cases clause with
  | none => rfl
  | some t => simp [clauseChars, t.nonempty]

/-- A clause that may be missing is read off, when what follows is read by a reader that waits for
later words only. -/
theorem optionalClause?_of_written {α : Type} {next? : List Char → Option α} {words : List String}
    (awaits : Awaits words next?) (later : words ⊆ clauseWords) {k : String} {ks : List String}
    (lettered : ∀ l ∈ k :: ks, isLettered l = true) (other : k ∉ words)
    {clause : Option ClauseText} {text rest : List Char} {a : α}
    (written : ClauseWritten (k :: ks) clause text) (found : next? rest = some a) :
    optionalClause? (k :: ks) next? (text ++ rest) =
      some (clauseChars clause, a) := by
  cases written with
  | missing =>
    have closed : keywords? (k :: ks) rest = none := by
      rw [Option.eq_none_iff_forall_ne_some]
      intro body opened
      have starts := startsWith_of_keywords? lettered opened
      rcases awaits rest a found with rfl | ⟨l, member, elsewhere⟩
      · simp [keywords?, gap?] at opened
      · exact other (starts.2.unique elsewhere.2 ▸ member)
    simp [optionalClause?, closed, found, clauseChars]
  | present t opening =>
    have opened := (keywords?_eq_some_iff lettered).mpr
      ⟨_, opening, List.append_assoc .., t.noGapAhead rest⟩
    simp only [optionalClause?, opened]
    exact t.cutBefore? (awaits.mono later) found

theorem Surface.CollectionName.noGapAhead (c : CollectionName) (rest : List Char) :
    NoGapAhead (c.chars ++ rest) := by
  intro d first
  rw [List.head?_append_of_ne_nil _ c.nonempty] at first
  exact (c.unbroken d (List.mem_of_head? first)).1

namespace SelectClauses

variable {q : Select}

theorem awaits_source? : Awaits ["from"] source? := by
  intro s a found
  simp only [source?, Option.bind_eq_bind, Option.bind_eq_some_iff] at found
  obtain ⟨body, opened, _⟩ := found
  exact .inr ⟨"from", by simp, startsWith_of_keywords? (by decide) opened⟩

-- From the last clause to the first, each reader waits for its own words and for those of the
-- clauses behind it.

theorem awaits_ordering? : Awaits ["order", "limit", "offset"]
    (optionalClause? ["order", "by"] Counts.read?) :=
  Counts.awaits_read?.optionalClause? (by decide)

theorem awaits_having? : Awaits ["having", "order", "limit", "offset"]
    (optionalClause? ["having"] (optionalClause? ["order", "by"] Counts.read?)) :=
  awaits_ordering?.optionalClause? (by decide)

theorem awaits_grouping? : Awaits clauseWords (optionalClause? ["group", "by"]
    (optionalClause? ["having"] (optionalClause? ["order", "by"] Counts.read?))) :=
  awaits_having?.optionalClause? (by decide)

theorem awaits_tail? : Awaits ("where" :: clauseWords) tail? :=
  awaits_grouping?.optionalClause? (by decide)

/-- The clause texts of the parts. -/
def ofParts (q : Select) : SelectClauses where
  fields := q.fields.chars
  collection := q.collection.chars
  condition := clauseChars q.condition
  grouping := clauseChars (q.grouping.map (·.keys))
  having := clauseChars (q.grouping.bind (·.having))
  ordering := clauseChars q.ordering
  counts := {
    limit := q.limit.map (·.count.digits)
    skip := q.limit.bind fun limit => limit.skip.map Count.digits
    offset := q.offset.map Count.digits }

/-- The clauses after the collection are found whole. -/
theorem tail?_of_written {where_ group having order limit offset : List Char}
    (whereWritten : ClauseWritten ["where"] q.condition where_)
    (groupWritten : ClauseWritten ["group", "by"] (q.grouping.map (·.keys)) group)
    (havingWritten : ClauseWritten ["having"] (q.grouping.bind (·.having)) having)
    (orderWritten : ClauseWritten ["order", "by"] q.ordering order)
    (limitWritten : LimitWritten q.limit limit) (offsetWritten : OffsetWritten q.offset offset) :
    tail? (where_ ++ (group ++ (having ++ (order ++ (limit ++ offset))))) =
      some ((ofParts q).condition, (ofParts q).grouping, (ofParts q).having,
        (ofParts q).ordering, (ofParts q).counts) := by
  have counts := Counts.read?_of_written limitWritten offsetWritten
  have ordered := optionalClause?_of_written Counts.awaits_read? (by decide) (by decide)
    (by decide) orderWritten counts
  have chosen := optionalClause?_of_written awaits_ordering? (by decide) (by decide) (by decide)
    havingWritten ordered
  have grouped := optionalClause?_of_written awaits_having? (by decide) (by decide) (by decide)
    groupWritten chosen
  exact optionalClause?_of_written awaits_grouping? (by decide) (by decide) (by decide) whereWritten
    grouped

/-- Every part of a written SELECT is found whole. -/
theorem read?_of_writes {s : List Char} (writes : q.Writes s) : read? s = some (ofParts q) := by
  obtain ⟨selectSpelled, gap, fromOpening, where_, group, having, order, limit, offset⟩ := writes
  rename_i select g source whereText groupText havingText orderText limitText offsetText
  have tail := tail?_of_written where_ group having order limit offset
  generalize rest : whereText ++ (groupText ++ (havingText ++ (orderText ++
    (limitText ++ offsetText)))) = tailText at tail
  have opened : keywords? ["from"] (source ++ (q.collection.chars ++ tailText)) =
      some (q.collection.chars ++ tailText) :=
    (keywords?_eq_some_iff (by decide)).mpr
      ⟨source, fromOpening, rfl, q.collection.noGapAhead tailText⟩
  have named : run? isCollectionChar (q.collection.chars ++ tailText) =
      some (q.collection.chars, tailText) := by
    refine run?_eq_some_iff.mpr ⟨rfl, q.collection.nonempty, fun c member => ?_, fun c first => ?_⟩
    · obtain ⟨visible, plain⟩ := q.collection.unbroken c member
      simp [isCollectionChar, visible, plain]
    · simp [isCollectionChar, awaits_tail?.isGap_ahead tail c first]
  have found : source? (source ++ (q.collection.chars ++ tailText)) =
      some (q.collection.chars, (ofParts q).condition, (ofParts q).grouping, (ofParts q).having,
        (ofParts q).ordering, (ofParts q).counts) := by
    simp [source?, opened, named, tail]
  have fields := q.fields.cutBefore? awaits_source? found
  have started : keyword? "select".toList
      (select ++ (g ++ (q.fields.chars ++ (source ++ (q.collection.chars ++ tailText))))) =
      some (g ++ (q.fields.chars ++ (source ++ (q.collection.chars ++ tailText)))) :=
    keyword?_eq_some_iff.mpr ⟨select, selectSpelled, rfl⟩
  have body : gap? (g ++ (q.fields.chars ++ (source ++ (q.collection.chars ++ tailText)))) =
      some (q.fields.chars ++ (source ++ (q.collection.chars ++ tailText))) :=
    gap?_eq_some_iff.mpr ⟨g, gap, rfl, q.fields.noGapAhead _⟩
  simp only [List.append_assoc, rest, read?, started, body, fields, Option.bind_eq_bind,
    Option.bind_some]
  simp only [Option.orElse_eq_orElse, Option.orElse_some, Option.bind_some, q.fields.trimmed,
    q.collection.trimmed]
  simp [ofParts, trim_clauseChars]

end SelectClauses

/-! ### Commands -/

theorem readCount_digits (n : Count) : readCount n.digits = .ok n.value := by
  have bounded := n.bounded
  have fits : Decimal.fitsInt64 (Numeral.natOf n.digits) = true := by
    rw [Decimal.fitsInt64, Decimal.leastInt64, Bool.and_eq_true]
    exact ⟨decide_eq_true (by omega), decide_eq_true (by omega)⟩
  rw [readCount, if_pos fits, Count.value]

theorem mapM_readCount (n : Option Count) :
    (n.map Count.digits).mapM readCount = .ok (n.map Count.value) := by
  cases n with
  | none =>
    rw [Option.map_none, Option.mapM_none]
    rfl
  | some n =>
    rw [Option.map_some, Option.mapM_some, readCount_digits]
    rfl

theorem stage_clauseChars (stage : List Char → Stage) (clause : Option ClauseText) :
    (if (clauseChars clause).isEmpty then [] else [stage (clauseChars clause)]) =
      (clause.map fun t => stage t.chars).toList := by
  rw [isEmpty_clauseChars]
  cases clause <;> rfl

theorem findCommand_ofParts {q : Select} (whole : q.grouping = none) :
    findCommand (SelectClauses.ofParts q) (q.limit.map fun limit => limit.count.value) q.skip =
      q.command := by
  simp only [findCommand, Select.command, whole, SelectClauses.ofParts, isEmpty_clauseChars]
  cases q.condition <;> cases q.ordering <;> cases q.limit <;> simp [clauseChars]

theorem aggregateCommand_ofParts {q : Select} {grouping : Grouping}
    (grouped : q.grouping = some grouping) :
    aggregateCommand (SelectClauses.ofParts q) (q.limit.map fun limit => limit.count.value) q.skip =
      q.command := by
  simp only [aggregateCommand, Select.command, grouped, SelectClauses.ofParts, Option.map_some,
    Option.bind_some, Option.map_map, Function.comp_def, clauseChars_some,
    stage_clauseChars fun t => Stage.filter (filterOf t),
    stage_clauseChars fun t => Stage.sort (sortKeys t)]

/-- Every text of a SELECT compiles, to the command that its parts stand for. -/
theorem compileSelect_of_writes (q : Select) (s : List Char) (writes : q.Writes s) :
    compileSelect s = .ok q.command := by
  have limit : (q.limit.map (·.count.digits)).mapM readCount =
      .ok (q.limit.map fun limit => limit.count.value) := by
    have read := mapM_readCount (q.limit.map (·.count))
    rwa [Option.map_map, Option.map_map] at read
  have skip : (q.limit.bind fun limit => limit.skip.map Count.digits).mapM readCount =
      .ok (q.limit.bind fun limit => limit.skip.map Count.value) := by
    have read := mapM_readCount (q.limit.bind (·.skip))
    rwa [Option.map_bind, Option.map_bind] at read
  have offset := mapM_readCount q.offset
  have later : (q.offset.map Count.value <|>
      q.limit.bind fun limit => limit.skip.map Count.value) = q.skip := by
    unfold Select.skip
    cases q.offset <;> rfl
  have compiled : compileSelect s = .ok (
      if (clauseChars (q.grouping.map (·.keys))).isEmpty then
        findCommand (.ofParts q) (q.limit.map fun limit => limit.count.value) q.skip
      else aggregateCommand (.ofParts q) (q.limit.map fun limit => limit.count.value) q.skip) := by
    simp only [compileSelect, SelectClauses.read?_of_writes writes]
    simp only [SelectClauses.ofParts, limit, skip, offset, bind, Except.bind, pure, Except.pure,
      later]
  rw [compiled, isEmpty_clauseChars]
  cases grouped : q.grouping with
  | none => exact congrArg Except.ok (findCommand_ofParts grouped)
  | some grouping => exact congrArg Except.ok (aggregateCommand_ofParts grouped)

/-- Every clause at once, in mixed letter case, with literals and words that look like keywords. -/
theorem compileSelect_of_writes_grouped :
    let q : Select := {
      fields := { chars := "a, SUM(by) AS n".toList }
      collection := { chars := "from".toList }
      condition := some { chars := "x = ', by' AND where".toList }
      grouping := some ⟨{ chars := "a".toList }, some { chars := "n > 5".toList }⟩
      ordering := some { chars := "n DESC".toList }
      limit := some ⟨{ digits := "10".toList }, some { digits := "5".toList }⟩
      offset := some { digits := "07".toList } }
    let s := ("SeLeCt  a, SUM(by) AS n\tFROM from\nwhere x = ', by' AND where" ++
      " Group\r\nBy a having n > 5 ORDER BY n DESC limit 10 ,5 OFFSET 07").toList
    q.Writes s ∧ compileSelect s = .ok q.command ∧ q.skip = some 7 := by
  intro q s
  have split : s = "SeLeCt".toList ++ "  ".toList ++ q.fields.chars ++
      ("\t".toList ++ "FROM".toList ++ " ".toList) ++ q.collection.chars ++
      (("\n".toList ++ "where".toList ++ " ".toList) ++ "x = ', by' AND where".toList) ++
      ((" ".toList ++ "Group".toList ++ ("\r\n".toList ++ "By".toList ++ " ".toList)) ++
        "a".toList) ++
      ((" ".toList ++ "having".toList ++ " ".toList) ++ "n > 5".toList) ++
      ((" ".toList ++ "ORDER".toList ++ (" ".toList ++ "BY".toList ++ " ".toList)) ++
        "n DESC".toList) ++
      ((" ".toList ++ "limit".toList ++ " ".toList) ++ "10".toList ++ " ".toList ++ ',' :: [] ++
        "5".toList) ++
      ((" ".toList ++ "OFFSET".toList ++ " ".toList) ++ "07".toList) := by decide +kernel
  have writes : q.Writes s := by
    rw [split]
    exact .parts (by decide +kernel) (by decide +kernel)
      (.keyword (by decide +kernel) (by decide +kernel) (.gap (by decide +kernel)))
      (.present _ (.keyword (by decide +kernel) (by decide +kernel) (.gap (by decide +kernel))))
      (.present _ (.keyword (by decide +kernel) (by decide +kernel)
        (.keyword (by decide +kernel) (by decide +kernel) (.gap (by decide +kernel)))))
      (.present _ (.keyword (by decide +kernel) (by decide +kernel) (.gap (by decide +kernel))))
      (.present _ (.keyword (by decide +kernel) (by decide +kernel)
        (.keyword (by decide +kernel) (by decide +kernel) (.gap (by decide +kernel)))))
      (.pair _ _ (.keyword (by decide +kernel) (by decide +kernel) (.gap (by decide +kernel)))
        (by decide +kernel) (by decide +kernel))
      (.present _ (.keyword (by decide +kernel) (by decide +kernel) (.gap (by decide +kernel))))
  exact ⟨writes, compileSelect_of_writes q s writes, by decide +kernel⟩

end SqlToMongo.Statement
