import SqlToMongo.Proofs.Statement.Items
import SqlToMongo.Proofs.Statement.Select
import SqlToMongo.Statement.Insert

/-!
# INSERT as it is written

The parts of an INSERT, the texts that write them and the document they stand for. The columns end
at the first closing parenthesis, the row at the one that closes it; both are cut at their commas
afterwards. Names and values that are paired keep the three searches in step: none of them stops
inside an item.

## Main result

`compileInsert_of_writes`: every text of an INSERT compiles to the document of its parts.
-/

namespace SqlToMongo.Statement

open Mongo Sql Text

namespace Surface

/-- The parts of an INSERT: its first row, and its columns if it names any. -/
structure Insert where
  collection : CollectionName
  columns : List NameText
  values : List ItemText

/-! ### What the parts stand for -/

/-- Columns with their values by position. Columns beyond the values are null, and values beyond the
columns are left out. -/
def pairs : List NameText → List ItemText → List (String × Value)
  | [], _ => []
  | column :: columns, [] => (String.ofList column.chars, .null) :: pairs columns []
  | column :: columns, v :: values => (String.ofList column.chars, v.value) :: pairs columns values

/-- Values with the numbers from `n` on. -/
def numbered (n : Nat) : List ItemText → List (String × Value)
  | [] => []
  | v :: values => ("field" ++ toString n, v.value) :: numbered (n + 1) values

/-- The document that is inserted, its fields stored in order. -/
def Insert.document (i : Insert) : Document :=
  .ofEntries <| match i.columns with
    | [] => numbered 0 i.values
    | columns => pairs columns i.values

/-! ### Texts -/

/-- Gaps that may be missing. -/
abbrev Spacing (g : List Char) : Prop :=
  ∀ c ∈ g, isGap c = true

/-- The texts between the collection and VALUES: a gap, or the columns in parentheses. -/
inductive ColumnsWritten : List NameText → List Char → Prop where
  | missing {gap : List Char} : Gap gap → ColumnsWritten [] gap
  | present {columns : List NameText} {before body after : List Char} : Spacing before →
      Listed (columns.map NameText.chars) body → Spacing after →
      ColumnsWritten columns (before ++ '(' :: body ++ ')' :: after)

/-- The texts of an INSERT. Anything may follow its first row. -/
inductive Insert.Writes (i : Insert) : List Char → Prop where
  | parts {insert into columns values gap row trailing : List Char} :
      Spelled "insert" insert → Opening ["into"] into → ColumnsWritten i.columns columns →
      Spelled "values" values → Spacing gap → Listed (i.values.map ItemText.chars) row →
      i.Writes (insert ++ into ++ i.collection.chars ++ columns ++ values ++ gap ++
        '(' :: row ++ ')' :: trailing)

theorem isItem_columns (columns : List NameText) :
    ∀ item ∈ columns.map NameText.chars, IsItem item := by
  simp only [List.forall_mem_map]
  exact fun column _ => column.isItem

theorem isItem_values (values : List ItemText) :
    ∀ item ∈ values.map ItemText.chars, IsItem item := by
  simp only [List.forall_mem_map]
  exact fun v _ => v.isItem

end Surface

open Surface

/-! ### Reading the parts -/

/-- A run of characters of a class is cut off whole where the rest is accepted. -/
theorem cutAfter?_run {α : Type} {isPart : Char → Bool} {accept : List Char → Option α}
    {run rest : List Char} {a : α} (nonempty : run ≠ []) (inside : ∀ c ∈ run, isPart c = true)
    (ends : ∀ c ∈ rest.head?, isPart c = false) (found : accept rest = some a) :
    cutAfter? isPart accept (run ++ rest) = some (run, a) := by
  have stops : cutAfter? isPart accept rest = none := by
    cases rest with
    | nil => rfl
    | cons c rest => simp [cutAfter?, ends c (by simp)]
  induction run with
  | nil => exact absurd rfl nonempty
  | cons c run ih =>
    -- The longest run is tried first, and it is the one that is accepted.
    have here : isPart c = true := inside c (by simp)
    cases run with
    | nil => simp [cutAfter?, here, stops, found]
    | cons d run =>
      have inner := ih (by simp) fun e member => inside e (List.mem_cons_of_mem _ member)
      rw [List.cons_append, cutAfter?, if_pos here, inner]

/-- A collection ends before what follows it. -/
theorem Surface.ColumnsWritten.ends {columns : List NameText} {text : List Char}
    (written : ColumnsWritten columns text) (rest : List Char) :
    ∀ c ∈ (text ++ rest).head?, isGap c = true ∨ c = '(' := by
  intro c first
  cases written with
  | missing white =>
    rw [List.head?_append_of_ne_nil _ white.1] at first
    exact .inl (white.2 c (List.mem_of_head? first))
  | @present _ before _ _ front =>
    cases before with
    | nil => exact .inr (by simpa using first.symm)
    | cons d before =>
      obtain rfl : d = c := by simpa using first
      exact .inl (front d (by simp))

theorem rightParen_notMem_columns {columns : List NameText} {body : List Char}
    (listed : Listed (columns.map NameText.chars) body) : ∀ c ∈ body, (c != ')') = true := by
  intro c member
  rw [bne_iff_ne]
  rintro rfl
  rcases listed.mem member with blank | comma | ⟨item, named, inside⟩
  · exact absurd blank (by decide)
  · exact absurd comma (by decide)
  · obtain ⟨column, _, rfl⟩ := List.mem_map.mp named
    exact (column.plain _ inside).2.2.2 rfl

namespace InsertClauses

theorem rows?_of_written {before values gap : List Char} (front : Spacing before)
    (spelled : Spelled "values" values) (back : Spacing gap) (rest : List Char) :
    rows? (before ++ (values ++ gap ++ '(' :: rest)) = some ('(' :: rest) := by
  have word : keyword? "values".toList (values ++ gap ++ '(' :: rest) =
      some (gap ++ '(' :: rest) :=
    keyword?_eq_some_iff.mpr ⟨values, spelled, by rw [List.append_assoc]⟩
  have visible : NoGapAhead (values ++ gap ++ '(' :: rest) := by
    rw [List.append_assoc]
    exact spelled.noGapAhead (by decide) _
  have opened : (gap ++ '(' :: rest).dropWhile isGap = '(' :: rest :=
    (takeWhile_run isGap gap _ back (by simp; decide)).2
  rw [rows?, (takeWhile_run isGap before _ front visible).2, word]
  simp [opened]

theorem columnsAndRows?_of_written {columns : List NameText} {text values gap : List Char}
    (written : ColumnsWritten columns text) (spelled : Spelled "values" values)
    (back : Spacing gap) (rest : List Char) :
    ∃ body, columnsAndRows? (text ++ (values ++ gap ++ '(' :: rest)) = some (body, '(' :: rest) ∧
      items body = columns.map NameText.chars := by
  cases written with
  | missing white =>
    refine ⟨[], ?_, rfl⟩
    have nothing : Spacing [] := by simp [Spacing]
    have rows := rows?_of_written nothing spelled back rest
    have visible : NoGapAhead (values ++ gap ++ '(' :: rest) := by
      rw [List.append_assoc]
      exact spelled.noGapAhead (by decide) _
    -- The first letter of VALUES opens no list of columns.
    obtain ⟨c, letters, rfl⟩ := List.exists_cons_of_ne_nil (spelled.ne_nil (by decide))
    have letter : c ≠ '(' := by
      rintro rfl
      have first : some (fold '(') = "values".toList.head? := congrArg List.head? spelled
      exact absurd first (by decide)
    rw [columnsAndRows?, (takeWhile_run isGap _ _ white.2 visible).2]
    split
    next same => exact absurd (List.cons.inj same).1 letter
    next =>
      rw [List.nil_append] at rows
      rw [rows]
      rfl
  | @present _ before body after front listed behind =>
    refine ⟨body, ?_, items_of_listed listed (isItem_columns _)⟩
    have rows := rows?_of_written behind spelled back rest
    have opens (tail : List Char) : ∀ c ∈ ('(' :: tail).head?, isGap c = false := by
      simp
      decide
    have inside := rightParen_notMem_columns listed
    obtain ⟨taken, dropped⟩ := takeWhile_run (· != ')') body
      (')' :: (after ++ (values ++ gap ++ '(' :: rest))) inside (by simp)
    rw [List.append_assoc, List.append_assoc, List.cons_append, List.cons_append, columnsAndRows?,
      (takeWhile_run isGap before _ front (opens _)).2]
    simp only [taken, dropped, rows, Option.map_some]

theorem read?_of_writes {i : Insert} {s : List Char} (writes : i.Writes s) :
    ∃ body row trailing, read? s = some ⟨i.collection.chars, body, '(' :: row ++ ')' :: trailing⟩ ∧
      items body = i.columns.map NameText.chars ∧ Listed (i.values.map ItemText.chars) row := by
  cases writes with
  | @parts insert into columns values gap row trailing spelled opening written named back listed =>
    obtain ⟨body, found, cut⟩ :=
      columnsAndRows?_of_written written named back (row ++ ')' :: trailing)
    refine ⟨body, row, trailing, ?_, cut, listed⟩
    let tail := columns ++ (values ++ gap ++ '(' :: (row ++ ')' :: trailing))
    have whole : insert ++ into ++ i.collection.chars ++ columns ++ values ++ gap ++
        '(' :: row ++ ')' :: trailing = insert ++ (into ++ (i.collection.chars ++ tail)) := by
      simp [tail]
    have word : keyword? "insert".toList (insert ++ (into ++ (i.collection.chars ++ tail))) =
        some (into ++ (i.collection.chars ++ tail)) :=
      keyword?_eq_some_iff.mpr ⟨insert, spelled, rfl⟩
    have opened : keywords? ["into"] (into ++ (i.collection.chars ++ tail)) =
        some (i.collection.chars ++ tail) :=
      (keywords?_eq_some_iff (by decide)).mpr ⟨into, opening, rfl, i.collection.noGapAhead _⟩
    have collection : cutAfter? (fun c => !isGap c && c != '(') columnsAndRows?
        (i.collection.chars ++ tail) =
          some (i.collection.chars, body, '(' :: (row ++ ')' :: trailing)) :=
      cutAfter?_run i.collection.nonempty
        (fun c member => by simp [i.collection.unbroken c member])
        (fun c first => by rcases written.ends _ c first with h | h <;> simp [h]) found
    rw [whole, read?, word, Option.bind_eq_bind, Option.bind_some, opened, Option.bind_eq_bind,
      Option.bind_some, collection]
    rfl

end InsertClauses

/-! ### The document -/

theorem columnValue_drop (values : List ItemText) (n : Nat) :
    columnValue (values.map ItemText.chars) n =
      ((values.drop n).head?.map ItemText.value).getD .null := by
  rw [columnValue, List.getElem?_map, ← List.head?_drop]
  cases values.drop n <;> rfl

theorem zipIdx_columns (columns : List NameText) (values : List ItemText) (n : Nat) :
    ((columns.map NameText.chars).zipIdx n).map (fun (column, i) =>
      (String.ofList column, columnValue (values.map ItemText.chars) i)) =
      pairs columns (values.drop n) := by
  induction columns generalizing n with
  | nil => rfl
  | cons column columns ih =>
    have first := columnValue_drop values n
    rw [List.map_cons, List.zipIdx_cons, List.map_cons, ih, ← List.tail_drop]
    dsimp only
    rw [first]
    cases values.drop n <;> rfl

theorem zipIdx_values (values : List ItemText) (n : Nat) :
    ((values.map ItemText.chars).zipIdx n).map (fun (value, i) =>
      ("field" ++ toString i, (Literal.classify value).toValue)) = numbered n values := by
  induction values generalizing n with
  | nil => rfl
  | cons v values ih =>
    rw [List.map_cons, List.zipIdx_cons, List.map_cons, ih]
    rfl

theorem insertedDocument_parts (i : Insert) :
    insertedDocument (i.columns.map NameText.chars) (i.values.map ItemText.chars) = i.document := by
  have paired := zipIdx_columns i.columns i.values 0
  have alone := zipIdx_values i.values 0
  unfold insertedDocument Insert.document
  cases named : i.columns with
  | nil => exact congrArg Document.ofEntries alone
  | cons column columns =>
    rw [named] at paired
    exact congrArg Document.ofEntries paired

/-- Every text of an INSERT compiles, to the document that pairs its columns with the values of its
first row. -/
theorem compileInsert_of_writes (i : Insert) (s : List Char) (writes : i.Writes s) :
    compileInsert s = .ok (.insertOne (String.ofList i.collection.chars) i.document) := by
  obtain ⟨body, row, trailing, read, columns, listed⟩ := InsertClauses.read?_of_writes writes
  have isItem := isItem_values i.values
  have group := firstGroup?_of_paired (listed.paired isItem) trailing
  simp only [compileInsert, read, group, columns, items_of_listed listed isItem,
    insertedDocument_parts, i.collection.trimmed]

/-- A call, a literal with commas and parentheses, a blank item, and a column without a value. -/
theorem compileInsert_of_writes_nested :
    let i : Insert := {
      collection := { chars := "t".toList }
      columns := [{ chars := "due".toList }, { chars := "b c".toList }, { chars := "k".toList }]
      values := [{ chars := "f(1, ')')".toList }, { chars := "'it''s, VALUES ('".toList }] }
    let s := "Insert\tinTo t(due ,, b c,k ) vaLues( f(1, ')') ,'it''s, VALUES ('), (2".toList
    i.Writes s ∧ compileInsert s = .ok (.insertOne "t"
      [("due", .string "$f(1, ')')"), ("b c", .string "it''s, VALUES ("), ("k", .null)]) := by
  intro i s
  have split : s = "Insert".toList ++ ("\t".toList ++ "inTo".toList ++ " ".toList) ++
      i.collection.chars ++
      ([] ++ '(' :: (([] ++ "due".toList ++ " ".toList) ++ ',' :: ([] ++ ',' ::
        ((" ".toList ++ "b c".toList ++ []) ++ ',' :: ([] ++ "k".toList ++ " ".toList)))) ++
        ')' :: " ".toList) ++
      "vaLues".toList ++ [] ++
      '(' :: ((" ".toList ++ "f(1, ')')".toList ++ " ".toList) ++ ',' ::
        ([] ++ "'it''s, VALUES ('".toList ++ [])) ++ ')' :: ", (2".toList := by decide +kernel
  have writes : i.Writes s := by
    rw [split]
    exact .parts (by decide +kernel)
      (.keyword (by decide +kernel) (by decide +kernel) (.gap (by decide +kernel)))
      (.present (by decide +kernel)
        (.more (.item (by decide +kernel) (by decide +kernel))
          (.more (.blank (by decide +kernel))
            (.more (.item (by decide +kernel) (by decide +kernel))
              (.last (.item (by decide +kernel) (by decide +kernel))))))
        (by decide +kernel))
      (by decide +kernel) (by decide +kernel)
      (.more (.item (by decide +kernel) (by decide +kernel))
        (.last (.item (by decide +kernel) (by decide +kernel))))
  have call : Literal.classify "f(1, ')')".toList = .reference "f(1, ')')" := by decide +kernel
  have quoted : Literal.classify "'it''s, VALUES ('".toList = .string "it''s, VALUES (" := by
    decide +kernel
  have document : i.document = [("due", .string "$f(1, ')')"), ("b c", .string "it''s, VALUES ("),
      ("k", .null)] := by
    simp only [i, Insert.document, pairs, ItemText.value, call, quoted, Literal.toValue]
    rfl
  exact ⟨writes, document ▸ compileInsert_of_writes i s writes⟩

end SqlToMongo.Statement
