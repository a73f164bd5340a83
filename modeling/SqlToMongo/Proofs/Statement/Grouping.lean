import SqlToMongo.Proofs.Mongo.Merging
import SqlToMongo.Proofs.Statement.Insert
import SqlToMongo.Proofs.Statement.Literals

/-!
# Fields under GROUP BY

Each field of a SELECT with GROUP BY is a plain field or a call, and each of them stores at most one
entry in the document of the group. A call ends at its last closing parenthesis: what may follow one
has none, so the search for the end of the argument passes over every parenthesis inside it.

## Main result

`groupStage_of_writes`: the document of a group holds what its fields store, one after another.
-/

namespace SqlToMongo.Statement

open Mongo Sql Text

namespace Surface

/-- A name made of letters, digits and underscores. -/
structure PlainName where
  chars : List Char
  nonempty : chars ≠ [] := by decide +kernel
  named : ∀ c ∈ chars, isNameChar c = true := by decide +kernel

/-- What a function is called with: not empty, without gaps at its ends, and paired. -/
structure ArgumentText where
  chars : List Char
  nonempty : chars ≠ [] := by decide +kernel
  starts : chars.head?.any isGap = false := by decide +kernel
  stops : chars.getLast?.any isGap = false := by decide +kernel
  paired : Paired true chars := by decide +kernel

/-- The functions that a group can compute. -/
inductive Aggregate where
  | sum
  | avg
  | min
  | max
  | count
  | distinct
  deriving DecidableEq, Repr

namespace Aggregate

def all : List Aggregate :=
  [sum, avg, min, max, count, distinct]

/-- The name of the function in small letters. -/
def name : Aggregate → String
  | sum => "sum"
  | avg => "avg"
  | min => "min"
  | max => "max"
  | count => "count"
  | distinct => "distinct"

/-- A count is a sum, and a list of distinct values a set that values are added to. -/
def operator : Aggregate → String
  | sum | count => "$sum"
  | avg => "$avg"
  | min => "$min"
  | max => "$max"
  | distinct => "$addToSet"

/-- The function of a name. -/
def named? (name : String) : Option Aggregate :=
  all.find? (·.name == name)

end Aggregate

/-- A call of a function, which need not be an aggregate function. -/
structure Call where
  function : PlainName
  column : ArgumentText

/-- A field of a SELECT with GROUP BY. -/
inductive GroupItem where
  | field (f : NameText)
  | call (c : Call) (alternative : Option PlainName)

/-- The keys of a GROUP BY with the fields of its SELECT. -/
structure Group where
  keys : List NameText
  items : List GroupItem

/-! ### What the parts stand for -/

def PlainName.text (n : PlainName) : String := String.ofList n.chars

/-- The accumulator of a call; `none` when its function, in any letter case, is no aggregate
function. -/
def Call.accumulator? (c : Call) : Option Value :=
  (Aggregate.named? (String.ofList (lowerAll c.function.chars))).map fun aggregate =>
    .doc [(aggregate.operator, .string ("$" ++ String.ofList c.column.chars))]

/-- The name of a call that has no alias. -/
def Call.defaultName (c : Call) : String :=
  String.ofList (lowerAll c.function.chars) ++ "_" ++ String.ofList c.column.chars

/-- What a field stores: nothing when it is a key or calls an unknown function. -/
def GroupItem.entry? (keys : List String) : GroupItem → Option (String × Value)
  | field f => if String.ofList f.chars ∈ keys then none else some (String.ofList f.chars, .int 1)
  | call c name => c.accumulator?.map (((name.map PlainName.text).getD c.defaultName), ·)

namespace Group

variable (g : Group)

def keyNames : List String :=
  g.keys.map fun key => String.ofList key.chars

/-- The key of the group: each of its names once. -/
def id : Document :=
  g.keyNames.eraseDups.map fun key => (key, .string ("$" ++ key))

def entries : List (String × Value) :=
  g.items.filterMap (GroupItem.entry? g.keyNames)

/-- The fields are stored one after another, behind the key of the group. -/
def document : Document :=
  Document.setAll [("_id", .doc g.id)] g.entries

end Group

/-! ### Texts -/

/-- What may follow the closing parenthesis of a call: nothing, or AS and a name. -/
inductive AliasEnding : Option (List Char) → List Char → Prop where
  | missing : AliasEnding none []
  | present {o name : List Char} : Opening ["as"] o → name ≠ [] →
      (∀ c ∈ name, isNameChar c = true) → AliasEnding (some name) (o ++ name)

/-- The texts of a call up to its closing parenthesis. -/
inductive Call.Writes (c : Call) : List Char → Prop where
  | parts {before lead trail : List Char} : Spacing before → Spacing lead → Spacing trail →
      c.Writes (c.function.chars ++ before ++ '(' :: (lead ++ c.column.chars ++ trail) ++ [')'])

inductive GroupItem.Writes : GroupItem → List Char → Prop where
  | field (f : NameText) : Writes (.field f) f.chars
  | call {c : Call} {name : Option PlainName} {text ending : List Char} : c.Writes text →
      AliasEnding (name.map PlainName.chars) ending → Writes (.call c name) (text ++ ending)

/-- The texts of the fields and of the keys. -/
inductive Group.Writes (g : Group) : List Char → List Char → Prop where
  | lists {texts : List (List Char)} {fields grouping : List Char} :
      List.Forall₂ GroupItem.Writes g.items texts → Listed texts fields →
      Listed (g.keys.map NameText.chars) grouping → g.Writes fields grouping

end Surface

open Surface

/-! ### Names and endings -/

theorem isWordBreak_of_isNameChar {c : Char} (named : isNameChar c = true) :
    isWordBreak c = false := by
  simp only [isNameChar, Bool.or_eq_true, beq_iff_eq] at named
  rcases named with (ascii | rfl) | rfl
  · exact isWordBreak_of_isNamePart (by simpa [isNamePart] using ascii)
  · decide
  · decide

theorem isBlank_of_isNameChar {c : Char} (named : isNameChar c = true) : isBlank c = false :=
  isBlank_of_isWordBreak (isWordBreak_of_isNameChar named)

theorem Surface.AliasEnding.unsplit {name : Option (List Char)} {ending : List Char}
    (ends : AliasEnding name ending) :
    ∀ c ∈ ending, isQuote c = false ∧ c ≠ ',' ∧ c ≠ '(' ∧ c ≠ ')' := by
  intro c member
  cases ends with
  | missing => simp at member
  | present opening _ named =>
    rcases List.mem_append.mp member with member | member
    · exact opening.unsplit (by decide) c member
    · exact unsplit_of_isWordBreak (isWordBreak_of_isNameChar (named c member))

theorem Surface.AliasEnding.isBlank_last {name : Option (List Char)} {ending : List Char}
    (ends : AliasEnding name ending) : ∀ c ∈ ending.getLast?, isBlank c = false := by
  cases ends with
  | missing => simp
  | present _ nonempty named =>
    intro c last
    rw [List.getLast?_append_of_ne_nil _ nonempty] at last
    exact isBlank_of_isNameChar (named c (List.mem_of_getLast? last))

/-! ### Reading a call -/

namespace AggregateCall

/-- The end of a call is accepted at its closing parenthesis and at the gaps before it. -/
theorem close?_eq_some_iff {s : List Char} {name : Option (List Char)} :
    close? s = some name ↔
      ∃ gaps ending, Spacing gaps ∧ s = gaps ++ ')' :: ending ∧ AliasEnding name ending := by
  constructor
  · intro found
    -- The gaps are the ones that the search drops before it looks for the parenthesis.
    have gaps : Spacing (s.takeWhile isGap) := List.all_eq_true.mp List.all_takeWhile
    unfold close? at found
    split at found
    next rest =>
      cases found
      refine ⟨_, [], gaps, ?_, .missing⟩
      rw [← rest, List.takeWhile_append_dropWhile]
    next ending _ rest =>
      refine ⟨_, ending, gaps, by rw [← rest, List.takeWhile_append_dropWhile], ?_⟩
      split at found
      next name read =>
        cases found
        obtain ⟨after, opened, ran⟩ := Option.bind_eq_some_iff.mp read
        obtain ⟨o, opening, rfl, _⟩ := (keywords?_eq_some_iff (by decide)).mp opened
        obtain ⟨rfl, nonempty, named, _⟩ := run?_eq_some_iff.mp ran
        rw [List.append_nil]
        exact .present opening nonempty named
      next => cases found
    next => cases found
  · rintro ⟨gaps, ending, spacing, rfl, ends⟩
    have closing : (gaps ++ ')' :: ending).dropWhile isGap = ')' :: ending :=
      (takeWhile_run isGap gaps _ spacing (by simp; decide)).2
    unfold close?
    rw [closing]
    cases ends with
    | missing => rfl
    | @present o name opening nonempty named =>
      have ahead : NoGapAhead name := fun c first =>
        isGap_eq_false (isBlank_of_isNameChar (named c (List.mem_of_head? first)))
      have opened : keywords? ["as"] (o ++ name) = some name :=
        (keywords?_eq_some_iff (by decide)).mpr ⟨o, opening, rfl, ahead⟩
      have ran : run? isNameChar name = some (name, []) :=
        run?_eq_some_iff.mpr ⟨by simp, nonempty, named, by simp⟩
      -- What follows the parenthesis starts with a gap, so the case of nothing is out.
      split
      next same => simp_all
      next rest _ same =>
        obtain rfl : o ++ name = rest := by simpa using same
        simp [opened, ran]
      next other => exact absurd rfl (other _)

/-- The argument ends at the last closing parenthesis: what may follow a call has none. -/
theorem cutBefore?_close? (column : ArgumentText) {trail ending : List Char}
    {name : Option (List Char)} (spacing : Spacing trail) (ends : AliasEnding name ending) :
    cutBefore? close? (column.chars ++ (trail ++ ')' :: ending)) = some (column.chars, name) := by
  refine cutBefore?_eq_some_iff.mpr
    ⟨_, rfl, close?_eq_some_iff.mpr ⟨trail, ending, spacing, rfl, ends⟩, ?_⟩
  intro pre back whole nonempty
  rw [Option.eq_none_iff_forall_ne_some]
  intro other found
  obtain ⟨gaps, after, isGaps, same, others⟩ := close?_eq_some_iff.mp found
  have stops : ∀ c ∈ (pre ++ back).getLast?, isGap c = false := by
    intro c last
    have stops := column.stops
    rwa [whole, Option.mem_def.mp last] at stops
  obtain ⟨c, member, gap⟩ := exists_visible_of_append nonempty stops
  -- The parenthesis found here is the one behind the argument, with the argument among the gaps
  -- before it, or an earlier one, with the later one in what follows it.
  rw [← List.append_assoc, List.append_eq_append_iff] at same
  rcases same with ⟨more, rfl, _⟩ | ⟨more, inside, rest⟩
  · simp [isGaps c (by simp [member])] at gap
  · cases more with
    | nil =>
      rw [List.append_nil] at inside
      simp [isGaps c (inside ▸ by simp [member])] at gap
    | cons d more =>
      obtain ⟨rfl, rfl⟩ := List.cons.inj rest
      exact absurd rfl (others.unsplit ')' (by simp)).2.2.2

theorem read?_of_writes {c : Call} {text ending : List Char} {name : Option (List Char)}
    (writes : c.Writes text) (ends : AliasEnding name ending) :
    read? (text ++ ending) = some ⟨c.function.chars, c.column.chars, name⟩ := by
  cases writes with
  | @parts before lead trail front spacing back =>
    -- The reader drops the gaps before the parenthesis and behind it.
    let body := lead ++ (c.column.chars ++ (trail ++ ')' :: ending))
    have whole : c.function.chars ++ before ++ '(' :: (lead ++ c.column.chars ++ trail) ++ [')'] ++
        ending = c.function.chars ++ (before ++ '(' :: body) := by simp [body]
    have stops : ∀ d ∈ (before ++ '(' :: body).head?, isNameChar d = false := by
      cases before with
      | nil => simp; decide
      | cons d before =>
        have gap := isBlank_of_isGap (front d (by simp))
        simp only [List.cons_append, List.head?_cons, Option.mem_some, forall_eq']
        rw [Bool.eq_false_iff]
        intro named
        simp [isBlank_of_isNameChar named] at gap
    have function : run? isNameChar (c.function.chars ++ (before ++ '(' :: body)) =
        some (c.function.chars, before ++ '(' :: body) :=
      run?_eq_some_iff.mpr ⟨rfl, c.function.nonempty, c.function.named, stops⟩
    have opened : (before ++ '(' :: body).dropWhile isGap = '(' :: body :=
      (takeWhile_run isGap before _ front (by simp; decide)).2
    have argument : body.dropWhile isGap = c.column.chars ++ (trail ++ ')' :: ending) := by
      refine (takeWhile_run isGap lead _ spacing ?_).2
      intro d first
      have starts := c.column.starts
      rw [List.head?_append_of_ne_nil _ c.column.nonempty] at first
      rwa [Option.mem_def.mp first] at starts
    rw [whole, read?, function, Option.bind_eq_bind, Option.bind_some]
    simp only [opened, argument, cutBefore?_close? c.column back ends]
    rfl

/-- A call that is read has parentheses, and what follows the last of them is its ending. -/
theorem exists_of_read? {item : List Char} {call : AggregateCall}
    (found : read? item = some call) :
    ∃ front ending, item = front ++ ')' :: ending ∧ '(' ∈ front ∧ AliasEnding call.name ending := by
  simp only [read?, Option.bind_eq_bind, Option.bind_eq_some_iff, Prod.exists] at found
  obtain ⟨function, after, ran, found⟩ := found
  obtain ⟨rfl, _⟩ := run?_eq_some_iff.mp ran
  split at found
  next body opened =>
    obtain ⟨⟨argument, name⟩, cut, made⟩ := Option.bind_eq_some_iff.mp found
    obtain ⟨back, start, closed, _⟩ := cutBefore?_eq_some_iff.mp cut
    obtain ⟨gaps, ending, _, rfl, ends⟩ := close?_eq_some_iff.mp closed
    obtain rfl := Option.some.inj made
    refine ⟨function ++ after.takeWhile isGap ++ '(' :: (body.takeWhile isGap ++ argument ++ gaps),
      ending, ?_, by simp, ends⟩
    have inner : body = body.takeWhile isGap ++ (argument ++ (gaps ++ ')' :: ending)) := by
      rw [← start, List.takeWhile_append_dropWhile]
    have outer : after = after.takeWhile isGap ++ '(' :: body := by
      rw [← opened, List.takeWhile_append_dropWhile]
    rw [inner] at outer
    simpa using outer
  next => cases found

end AggregateCall

/-! ### What a field stores -/

namespace Surface

theorem Call.Writes.isItem {c : Call} {text : List Char} (writes : c.Writes text) :
    IsItem text := by
  cases writes with
  | @parts before lead trail front spacing back =>
    have blanks {g : List Char} (gaps : Spacing g) {commas : Bool} : Paired commas g :=
      .of_blanks fun d member => isBlank_of_isGap (gaps d member)
    have function : Paired false c.function.chars := .of_plain fun d member =>
      unsplit_of_isWordBreak (isWordBreak_of_isNameChar (c.function.named d member))
    have inner : Paired true (lead ++ c.column.chars ++ trail) :=
      ((blanks spacing).append c.column.paired).append (blanks back)
    have group : Paired false ('(' :: (lead ++ c.column.chars ++ trail) ++ ')' :: []) :=
      .nested inner .nil
    refine ⟨by simp, trim_eq_self ?_ ?_, ?_⟩
    · intro d first
      rw [List.append_assoc, List.append_assoc,
        List.head?_append_of_ne_nil _ c.function.nonempty] at first
      exact isBlank_of_isNameChar (c.function.named d (List.mem_of_head? first))
    · intro d last
      rw [List.getLast?_concat, Option.mem_some] at last
      subst last
      decide
    · rw [List.append_assoc _ _ [')']]
      exact (function.append (blanks front)).append group

theorem GroupItem.Writes.isItem {item : GroupItem} {text : List Char} (writes : item.Writes text) :
    IsItem text := by
  cases writes with
  | field f => exact f.isItem
  | call writes ends => exact writes.isItem.append ends.unsplit ends.isBlank_last

/-- The converter knows the aggregate functions, with their accumulators, and no other function. -/
theorem accumulator?_eq (name : String) :
    Mongo.accumulator? name = (Aggregate.named? name).map Aggregate.operator := by
  have table : accumulators = Aggregate.all.map fun a => (a.name, a.operator) := rfl
  rw [Mongo.accumulator?, table, Aggregate.named?]
  induction Aggregate.all with
  | nil => rfl
  | cons a rest ih =>
    rw [List.map_cons, List.lookup_cons, List.find?_cons]
    by_cases same : a.name = name
    · simp [same]
    · have looked : (name == a.name) = false := by simpa using Ne.symm same
      have found : (a.name == name) = false := by simpa using same
      simp [looked, found, ih]

theorem stored?_call (c : Call) (name : Option PlainName) :
    AggregateCall.stored? ⟨c.function.chars, c.column.chars, name.map PlainName.chars⟩ =
      c.accumulator?.map (((name.map PlainName.text).getD c.defaultName), ·) := by
  simp only [AggregateCall.stored?, Call.accumulator?, accumulator?_eq, Option.map_map]
  rfl

/-- A field stores the same, however it is written. -/
theorem GroupItem.Writes.contribution? {item : GroupItem} {text : List Char}
    (writes : item.Writes text) (keys : List NameText) :
    Statement.contribution? (keys.map NameText.chars) text =
      item.entry? (keys.map fun key => String.ofList key.chars) := by
  cases writes with
  | field f =>
    have plain : AggregateCall.read? f.chars = none := by
      rw [Option.eq_none_iff_forall_ne_some]
      intro call found
      obtain ⟨front, ending, whole, left, _⟩ := AggregateCall.exists_of_read? found
      exact (f.plain '(' (whole ▸ List.mem_append_left _ left)).2.2.1 rfl
    have isKey : (keys.map NameText.chars).contains f.chars = true ↔
        String.ofList f.chars ∈ keys.map fun key => String.ofList key.chars := by
      simp [String.ofList_inj]
    rw [Statement.contribution?, plain, GroupItem.entry?]
    simp only [isKey]
  | @call c name text ending writes ends =>
    rw [Statement.contribution?, AggregateCall.read?_of_writes writes ends]
    exact stored?_call c name

theorem filterMap_contribution? {items : List GroupItem} {texts : List (List Char)}
    (written : List.Forall₂ GroupItem.Writes items texts) (keys : List NameText) :
    texts.filterMap (Statement.contribution? (keys.map NameText.chars)) =
      items.filterMap (GroupItem.entry? (keys.map fun key => String.ofList key.chars)) := by
  induction written with
  | nil => rfl
  | cons writes _ ih => rw [List.filterMap_cons, List.filterMap_cons, writes.contribution?, ih]

end Surface

/-- However its fields and keys are written, the document of a group starts with its key, and the
fields store their entries in it one after another. All of them stay when their names differ. -/
theorem groupStage_of_writes (g : Group) (fields grouping : List Char)
    (writes : g.Writes fields grouping) :
    (groupStage fields grouping).toDocument = [("$group", .doc g.document)] ∧
      ((Document.keys (("_id", .doc g.id) :: g.entries)).Nodup →
        g.document = ("_id", .doc g.id) :: g.entries) := by
  cases writes with
  | @lists texts fields grouping written listed grouped =>
    have keys := items_of_listed grouped (isItem_columns g.keys)
    have items := items_of_listed listed (isItem_of_written GroupItem.Writes.isItem written)
    have id := Document.ofEntries_named (fun key => .string ("$" ++ key)) g.keyNames
    -- The stage merges its entries by themselves first, which changes nothing.
    refine ⟨?_, @Document.setAll_eq_append [("_id", .doc g.id)] g.entries⟩
    rw [groupStage, keys, items, filterMap_contribution? written, List.map_map, Stage.toDocument,
      Document.setAll_ofEntries, Group.document, Group.id, ← id, Group.keyNames, List.map_map]
    rfl

/-- Among the fields are a key, a call with parentheses of its own and a function that is none of
the aggregates. -/
theorem groupStage_of_writes_mixed :
    let g : Group := {
      keys := [{ chars := "area".toList }, { chars := "year".toList }, { chars := "area".toList }]
      items := [
        .field { chars := "area".toList },
        .field { chars := "total".toList },
        .call ⟨{ chars := "COUNT".toList }, { chars := "*".toList }⟩ none,
        .call ⟨{ chars := "Sum".toList }, { chars := "net(a, ')')".toList }⟩
          (some { chars := "year".toList }),
        .call ⟨{ chars := "upper".toList }, { chars := "area".toList }⟩
          (some { chars := "total".toList })] }
    let fields := "area,total , COUNT(*),Sum (\tnet(a, ')') ) aS year,upper(area) as total".toList
    let grouping := "area, year,area".toList
    let stored : Document := [
      ("_id", .doc [("area", .string "$area"), ("year", .string "$year")]),
      ("total", .int 1),
      ("count_*", .doc [("$sum", .string "$*")]),
      ("year", .doc [("$sum", .string "$net(a, ')')")])]
    g.Writes fields grouping ∧ stored.keys.Nodup ∧
      (groupStage fields grouping).toDocument = [("$group", .doc stored)] := by
  intro g fields grouping stored
  let count := "COUNT".toList ++ [] ++ '(' :: ([] ++ "*".toList ++ []) ++ [')']
  let sum := "Sum".toList ++ " ".toList ++ '(' ::
    ("\t".toList ++ "net(a, ')')".toList ++ " ".toList) ++ [')']
  let upper := "upper".toList ++ [] ++ '(' :: ([] ++ "area".toList ++ []) ++ [')']
  let year := " ".toList ++ "aS".toList ++ " ".toList ++ "year".toList
  let total := " ".toList ++ "as".toList ++ " ".toList ++ "total".toList
  have written : List.Forall₂ GroupItem.Writes g.items
      ["area".toList, "total".toList, count ++ [], sum ++ year, upper ++ total] :=
    .cons (.field _) <| .cons (.field _) <|
    .cons (.call (.parts (by simp [Spacing]) (by simp [Spacing]) (by simp [Spacing])) .missing) <|
    .cons (.call (.parts (by decide +kernel) (by decide +kernel) (by decide +kernel))
      (.present (.keyword (by decide +kernel) (by decide +kernel) (.gap (by decide +kernel)))
        (by decide +kernel) (by decide +kernel))) <|
    .cons (.call (.parts (by simp [Spacing]) (by simp [Spacing]) (by simp [Spacing]))
      (.present (.keyword (by decide +kernel) (by decide +kernel) (.gap (by decide +kernel)))
        (by decide +kernel) (by decide +kernel))) .nil
  have split : fields = ([] ++ "area".toList ++ []) ++
      ',' :: (([] ++ "total".toList ++ " ".toList) ++
      ',' :: ((" ".toList ++ (count ++ []) ++ []) ++
      ',' :: (([] ++ (sum ++ year) ++ []) ++
      ',' :: ([] ++ (upper ++ total) ++ [])))) := by decide +kernel
  have keys : grouping = ([] ++ "area".toList ++ []) ++
      ',' :: ((" ".toList ++ "year".toList ++ []) ++
      ',' :: ([] ++ "area".toList ++ [])) := by decide +kernel
  have writes : g.Writes fields grouping := by
    rw [split, keys]
    exact .lists written
      (.more (.item (by decide +kernel) (by decide +kernel))
        (.more (.item (by decide +kernel) (by decide +kernel))
          (.more (.item (by decide +kernel) (by decide +kernel))
            (.more (.item (by decide +kernel) (by decide +kernel))
              (.last (.item (by decide +kernel) (by decide +kernel)))))))
      (.more (.item (by decide +kernel) (by decide +kernel))
        (.more (.item (by decide +kernel) (by decide +kernel))
          (.last (.item (by decide +kernel) (by decide +kernel)))))
  have distinct : stored.keys.Nodup := by decide +kernel
  obtain ⟨document, whole⟩ := groupStage_of_writes g fields grouping writes
  refine ⟨writes, distinct, ?_⟩
  rw [document, whole distinct]
  rfl

/-- An alias can take the place of the key. -/
example : (groupStage "n, MAX(n) AS _id, SUM(v) AS n".toList "k".toList).toDocument =
    [("$group", .doc [
      ("_id", .doc [("$max", .string "$n")]), ("n", .doc [("$sum", .string "$v")])])] := by
  rfl

end SqlToMongo.Statement
