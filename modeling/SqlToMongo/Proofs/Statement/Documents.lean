import SqlToMongo.Mongo.CommandDocument
import SqlToMongo.Proofs.Decimal.Binary64
import SqlToMongo.Proofs.Mongo.Merging
import SqlToMongo.Proofs.Statement.Conditions

/-!
# The documents of a compiled statement

Compiling ends in one of five ways. Each builds its documents from the clauses it found, and each
document that is built from items merges the entries of these items. The rest is literal
construction: wrappers with fixed names around merged documents. What the document of a command says
under each name is given once, by `field?`.

## Main results

`compiled_of_compile`: what a compiled statement is made of.
`regular_of_compiled`: names are distinct in its documents at every depth, and numbers are finite.
`documents_of_compile`: which entries each document merges.
-/

namespace SqlToMongo.Mongo

open Document

/-! ### Fields under their names -/

/-- What the document of a stage says under a name. -/
def Stage.field? (name : String) : Stage → Option Value
  | .filter condition => if name = "$match" then some (.doc condition) else none
  | .group id accumulators =>
    if name = "$group" then some (.doc (Document.setAll [("_id", .doc id)] accumulators)) else none
  | .sort keys => if name = "$sort" then some (.doc keys) else none
  | .skip n => if name = "$skip" then some (.int n) else none
  | .limit n => if name = "$limit" then some (.int n) else none
  | .unknown => none

/-- What the document of a command says under a name. A query says nothing of a projection that
takes all fields, and nothing of documents to skip without a limit. -/
def Command.field? (name : String) : Command → Option Value
  | .find q =>
    match name with
    | "find" => some (.string q.collection)
    | "filter" => some (.doc q.filter)
    | "projection" => if q.projection.isEmpty then none else some (.doc q.projection)
    | "sort" => q.sort.map .doc
    | "skip" => q.limit.bind fun _ => q.skip.map .int
    | "limit" => q.limit.map .int
    | _ => none
  | .aggregate collection pipeline =>
    match name with
    | "aggregate" => some (.string collection)
    | "pipeline" => some (.list (pipeline.map fun stage => .doc stage.toDocument))
    | "cursor" => some (.doc [])
    | _ => none
  | .insertOne collection document =>
    match name with
    | "insert" => some (.string collection)
    | "documents" => some (.list [.doc document])
    | _ => none
  | .updateMany collection filter update =>
    match name with
    | "update" => some (.string collection)
    | "updates" =>
      some (.list [.doc [("q", .doc filter), ("u", .doc update), ("multi", .bool true)]])
    | _ => none
  | .deleteMany collection filter =>
    match name with
    | "delete" => some (.string collection)
    | "deletes" => some (.list [.doc [("q", .doc filter), ("limit", .int 0)]])
    | _ => none
  | .unknown _ => none

theorem Stage.field?_eq_lookup (name : String) (stage : Stage) :
    stage.field? name = stage.toDocument.lookup name := by
  cases stage with
  | unknown => rfl
  | filter | group | sort | skip | limit =>
    rw [toDocument, lookup_entry]
    rfl

theorem Command.field?_eq_lookup (name : String) (command : Command) :
    command.field? name = command.toDocument.lookup name := by
  unfold field?
  cases command with
  | find q =>
    -- Which entries there are depends on the optional fields, so these are taken apart first.
    obtain ⟨collection, filter, projection, sort, skip, limit⟩ := q
    cases projection <;> cases sort <;> cases limit <;> cases skip <;>
    · dsimp only
      split <;> simp_all [toDocument, lookup_entry]
  | aggregate | insertOne | updateMany | deleteMany =>
    dsimp only
    split <;> simp_all [toDocument, lookup_entry, pipelineDocuments]
  | unknown => rfl

end SqlToMongo.Mongo

namespace SqlToMongo.Statement

open Mongo Sql Text Document Value

/-! ### Compiled commands -/

/-- The clauses found in a statement, and the command that is made of them. -/
inductive Compiled (s : List Char) : Command → Prop where
  | find {c : SelectClauses} (limit skip : Option Int) (found : SelectClauses.read? s = some c)
      (whole : c.grouping = []) : Compiled s (findCommand c limit skip)
  | aggregate {c : SelectClauses} (limit skip : Option Int)
      (found : SelectClauses.read? s = some c) (grouped : c.grouping ≠ []) :
      Compiled s (aggregateCommand c limit skip)
  | insert {c : InsertClauses} {row : List Char} (found : InsertClauses.read? s = some c)
      (closed : firstGroup? c.rows = some row) :
      Compiled s (.insertOne (String.ofList (trim c.collection))
        (insertedDocument (items c.columns) (items row)))
  | update {c : UpdateClauses} (found : UpdateClauses.read? s = some c) :
      Compiled s (.updateMany (String.ofList c.collection) (optionalFilter c.condition)
        [("$set", .doc (Document.ofEntries ((items c.assignments).filterMap assignment?)))])
  | delete {c : DeleteClauses} (found : DeleteClauses.read? s = some c) :
      Compiled s (.deleteMany (String.ofList c.collection) (optionalFilter c.condition))

theorem compiled_of_compileSelect {s : List Char} {command : Command}
    (compiled : compileSelect s = .ok command) : Compiled s command := by
  unfold compileSelect at compiled
  split at compiled
  next => cases compiled
  next c found =>
    simp only [bind, Except.bind, pure, Except.pure] at compiled
    -- The three counts are read one after another; any that is too large ends the statement.
    split at compiled
    next => cases compiled
    next limit _ =>
      split at compiled
      next => cases compiled
      next skip _ =>
        split at compiled
        next => cases compiled
        next offset _ =>
          cases compiled
          split
          next whole => exact .find limit (offset <|> skip) found (List.isEmpty_iff.mp whole)
          next grouped =>
            exact .aggregate limit (offset <|> skip) found fun empty => grouped (by rw [empty]; rfl)

theorem compiled_of_kind {kind : Kind} {s : List Char} {command : Command}
    (compiled : kind.compile s = .ok command) : Compiled s command := by
  cases kind with
  | select => exact compiled_of_compileSelect compiled
  | insert =>
    simp only [Kind.compile, compileInsert] at compiled
    split at compiled
    next => cases compiled
    next c found =>
      split at compiled
      next => cases compiled
      next row closed =>
        cases compiled
        exact .insert found closed
  | update =>
    simp only [Kind.compile, compileUpdate] at compiled
    split at compiled
    next => cases compiled
    next c found =>
      cases compiled
      exact .update found
  | delete =>
    simp only [Kind.compile, compileDelete] at compiled
    split at compiled
    next => cases compiled
    next c found =>
      cases compiled
      exact .delete found

theorem compiled_of_compile {sql : String} {command : Command}
    (compiled : compile sql = .ok command) : Compiled (normalize sql.toList) command := by
  obtain ⟨kind, made⟩ := exists_kind_of_compile compiled
  exact compiled_of_kind made

/-! ### Regularity -/

theorem isFinite_of_classify {text : List Char} {x : Decimal.Binary64}
    (float : Literal.classify text = .float x) : x.isFinite = true := by
  simp only [Literal.classify] at float
  split at float
  next => cases float
  next =>
    cases read : (Numeral.read? (trim text)).bind Literal.ofNumeral? with
    | none =>
      simp only [read, Option.getD_none, Literal.ofName] at float
      split at float <;> cases float
    | some literal =>
      obtain ⟨numeral, -, made⟩ := Option.bind_eq_some_iff.mp read
      simp only [read, Option.getD_some] at float
      rw [float, Literal.ofNumeral?] at made
      split at made
      next => cases made
      next =>
        obtain ⟨y, rounded, same⟩ := Option.map_eq_some_iff.mp made
        cases same
        exact Decimal.Binary64.isFinite_of_ofDecimal? rounded

theorem regular_literal (text : List Char) : (Literal.classify text).toValue.Regular := by
  cases classified : Literal.classify text with
  | float x => exact regular_float.mpr (isFinite_of_classify classified)
  | string s | int n | bool b | null | reference field => simp [Literal.toValue]

theorem regular_projection (fields : List Char) : Regular (.doc (projection fields)) := by
  unfold projection
  split
  · exact regular_empty
  · exact regular_ofEntries (by simp)

theorem regular_sortKeys (ordering : List Char) : Regular (.doc (sortKeys ordering)) :=
  regular_ofEntries (by simp)

theorem regular_columnValue (values : List (List Char)) (i : Nat) :
    (columnValue values i).Regular := by
  unfold columnValue
  split
  · exact regular_literal _
  · exact regular_null

theorem regular_insertedDocument (columns values : List (List Char)) :
    Regular (.doc (insertedDocument columns values)) := by
  unfold insertedDocument
  split
  · apply regular_ofEntries
    simp only [List.forall_mem_map]
    exact fun pair _ => regular_literal pair.1
  · apply regular_ofEntries
    simp only [List.forall_mem_map]
    exact fun pair _ => regular_columnValue values pair.2

theorem regular_assignment {item : List Char} {entry : String × Value}
    (assigned : assignment? item = some entry) : entry.2.Regular := by
  simp only [assignment?] at assigned
  split at assigned
  next =>
    split at assigned
    next => cases assigned
    next =>
      cases assigned
      exact regular_literal _
  next => cases assigned

theorem regular_contribution {keys : List (List Char)} {item : List Char} {entry : String × Value}
    (contributed : contribution? keys item = some entry) : entry.2.Regular := by
  unfold contribution? at contributed
  split at contributed
  next call _ =>
    obtain ⟨operator, -, rfl⟩ := Option.map_eq_some_iff.mp contributed
    exact regular_single (regular_string _)
  next =>
    split at contributed
    next => cases contributed
    next =>
      cases contributed
      exact regular_int 1

theorem regular_optionalFilter (condition : List Char) :
    Regular (.doc (optionalFilter condition)) := by
  unfold optionalFilter
  split
  · exact regular_empty
  · exact Filter.regular_ofCondition _

theorem regular_groupStage (fields grouping : List Char) :
    Regular (.doc (groupStage fields grouping).toDocument) := by
  refine regular_single (regular_setAll (regular_single ?_) fun entry member => ?_)
  · exact regular_ofEntries (by simp)
  · have accumulated : Regular (.doc (Document.ofEntries
        ((items fields).filterMap (contribution? (items grouping))))) := by
      apply regular_ofEntries
      intro entry member
      obtain ⟨item, -, contributed⟩ := List.mem_filterMap.mp member
      exact regular_contribution contributed
    exact (regular_doc.mp accumulated).2 entry member

/-- What a stage of the pipeline is made of. -/
theorem stage_cases {c : SelectClauses} {limit skip : Option Int} {collection : String}
    {pipeline : List Stage} (made : aggregateCommand c limit skip = .aggregate collection pipeline)
    {stage : Stage} (member : stage ∈ pipeline) :
    (∃ clause ∈ [c.condition, c.having], clause ≠ [] ∧ stage = .filter (filterOf clause)) ∨
    stage = groupStage c.fields c.grouping ∨ stage = .sort (sortKeys c.ordering) ∨
    (∃ n, stage = .skip n) ∨ ∃ n, stage = .limit n := by
  simp only [aggregateCommand, Command.aggregate.injEq] at made
  obtain ⟨-, rfl⟩ := made
  simp only [List.mem_append] at member
  rcases member with ((((filtered | grouped) | chosen) | sorted) | skipped) | limited
  · split at filtered
    next => simp at filtered
    next present =>
      exact .inl ⟨c.condition, by simp, by simpa using present, by simpa using filtered⟩
  · exact .inr (.inl (by simpa using grouped))
  · split at chosen
    next => simp at chosen
    next present => exact .inl ⟨c.having, by simp, by simpa using present, by simpa using chosen⟩
  · split at sorted
    next => simp at sorted
    next => exact .inr (.inr (.inl (by simpa using sorted)))
  · obtain ⟨n, -, rfl⟩ := by simpa using skipped
    exact .inr (.inr (.inr (.inl ⟨n, rfl⟩)))
  · obtain ⟨n, -, rfl⟩ := by simpa using limited
    exact .inr (.inr (.inr (.inr ⟨n, rfl⟩)))

/-- The optional names stand behind the fixed ones, each at most once. -/
theorem keys_find_sublist (q : Find) : List.Sublist (Document.keys (Command.find q).toDocument)
    ["find", "filter", "projection", "sort", "skip", "limit"] := by
  obtain ⟨collection, filter, projection, sort, skip, limit⟩ := q
  have optional {α : Type} (o : Option α) (key : String) (f : α → Value) :
      List.Sublist (Document.keys (o.map fun a => (key, f a)).toList) [key] := by
    cases o <;> simp [Document.keys]
  have fields : List.Sublist (Document.keys
      (if projection.isEmpty then [] else [("projection", .doc projection)])) ["projection"] := by
    split <;> simp [Document.keys]
  simp only [Command.toDocument, keys_append]
  refine (((List.Sublist.refl _).append fields).append (optional sort "sort" .doc)).append ?_
  cases limit with
  | none => exact List.nil_sublist _
  | some limit => cases skip <;> simp [Document.keys]

theorem regular_find {q : Find} (filter : Regular (.doc q.filter))
    (projection : Regular (.doc q.projection)) (sort : ∀ keys ∈ q.sort, Regular (.doc keys)) :
    Regular (.doc (Command.find q).toDocument) := by
  refine regular_doc.mpr ⟨(keys_find_sublist q).nodup (by decide), fun entry member => ?_⟩
  simp only [Command.toDocument, List.mem_append] at member
  rcases member with ((fixed | projected) | sorted) | counted
  · rcases List.mem_cons.mp fixed with rfl | filtered
    · exact regular_string _
    · obtain rfl := List.mem_singleton.mp filtered
      exact filter
  · split at projected
    next => simp at projected
    next =>
      obtain rfl := List.mem_singleton.mp projected
      exact projection
  · obtain ⟨keys, chosen, rfl⟩ := Option.map_eq_some_iff.mp (Option.mem_toList.mp sorted)
    exact sort keys chosen
  · split at counted
    next => simp at counted
    next =>
      rcases List.mem_append.mp counted with skipped | limited
      · obtain ⟨n, -, rfl⟩ := Option.map_eq_some_iff.mp (Option.mem_toList.mp skipped)
        exact regular_int n
      · obtain rfl := List.mem_singleton.mp limited
        exact regular_int _

theorem regular_aggregate {collection : String} {pipeline : List Stage}
    (stages : ∀ stage ∈ pipeline, Regular (.doc stage.toDocument)) :
    Regular (.doc (Command.aggregate collection pipeline).toDocument) := by
  refine regular_doc.mpr ⟨by simp [Command.toDocument, Document.keys], ?_⟩
  have documents : Regular (.list (pipelineDocuments pipeline)) := by
    apply regular_list.mpr
    simpa [pipelineDocuments] using stages
  simp [Command.toDocument, documents, regular_empty]

theorem regular_of_compiled {s : List Char} {command : Command} (compiled : Compiled s command) :
    Regular (.doc command.toDocument) := by
  cases compiled with
  | @find c limit skip found whole =>
    refine regular_find ?_ (regular_projection c.fields) ?_
    · dsimp only
      split
      · exact regular_empty
      · exact Filter.regular_ofCondition _
    · intro keys chosen
      dsimp only at chosen
      split at chosen
      next => simp at chosen
      next =>
        obtain rfl := Option.some.inj chosen
        exact regular_sortKeys c.ordering
  | @aggregate c limit skip found grouped =>
    cases made : aggregateCommand c limit skip with
    | aggregate collection pipeline =>
      refine regular_aggregate fun stage member => ?_
      rcases stage_cases made member with ⟨clause, -, -, rfl⟩ | rfl | rfl | ⟨n, rfl⟩ | ⟨n, rfl⟩
      · exact regular_single (Filter.regular_ofCondition _)
      · exact regular_groupStage c.fields c.grouping
      · exact regular_single (regular_sortKeys c.ordering)
      · exact regular_single (regular_int n)
      · exact regular_single (regular_int n)
    | find | insertOne | updateMany | deleteMany | unknown => cases made
  | insert found closed =>
    refine regular_doc.mpr ⟨by simp [Command.toDocument, Document.keys], ?_⟩
    simp [Command.toDocument, regular_list, regular_insertedDocument]
  | @update c found =>
    have assigned : Regular (.doc (Document.ofEntries
        ((items c.assignments).filterMap assignment?))) := by
      apply regular_ofEntries
      intro entry member
      obtain ⟨item, -, assigned⟩ := List.mem_filterMap.mp member
      exact regular_assignment assigned
    have change : Regular (.doc [("q", .doc (optionalFilter c.condition)),
        ("u", .doc [("$set", .doc (Document.ofEntries
          ((items c.assignments).filterMap assignment?)))]), ("multi", .bool true)]) := by
      refine regular_doc.mpr ⟨by simp [Document.keys], ?_⟩
      simp [regular_optionalFilter, regular_single assigned]
    refine regular_doc.mpr ⟨by simp [Command.toDocument, Document.keys], ?_⟩
    simp [Command.toDocument, regular_list, change]
  | @delete c found =>
    have deletion : Regular (.doc [("q", .doc (optionalFilter c.condition)),
        ("limit", .int 0)]) := by
      refine regular_doc.mpr ⟨by simp [Document.keys], ?_⟩
      simp [regular_optionalFilter]
    refine regular_doc.mpr ⟨by simp [Command.toDocument, Document.keys], ?_⟩
    simp [Command.toDocument, regular_list, deletion]

/-! ### Merged documents -/

/-- The condition of a clause; a missing clause has no conjuncts. -/
def clauseCondition (clause : List Char) : Condition :=
  if clause.isEmpty then .all [] else Condition.parse clause

def projectionEntries (fields : List Char) : List (String × Value) :=
  if fields = ['*'] then [] else (items fields).map fun item => (projectedName item, .int 1)

def sortEntries (ordering : List Char) : List (String × Value) :=
  (items ordering).map fun item => ((sortKey item).1, .int (sortKey item).2)

def keyEntries (grouping : List Char) : List (String × Value) :=
  (items grouping).map fun key => (String.ofList key, .string ("$" ++ String.ofList key))

def accumulatorEntries (fields grouping : List Char) : List (String × Value) :=
  (items fields).filterMap (contribution? (items grouping))

def assignmentEntries (assignments : List Char) : List (String × Value) :=
  (items assignments).filterMap assignment?

/-- The columns with the values at their places; without columns the values under numbered names. -/
def insertedEntries (columns row : List Char) : List (String × Value) :=
  if (items columns).isEmpty then
    (items row).zipIdx.map fun (value, i) =>
      ("field" ++ toString i, (Literal.classify value).toValue)
  else
    (items columns).zipIdx.map fun (column, i) =>
      (String.ofList column, columnValue (items row) i)

/-- A stage whose documents merge the items of the clauses. The whole of a group merges its key and
its accumulators, so an accumulator named `_id` replaces the key. -/
inductive MergedStage (c : SelectClauses) : Stage → Prop where
  | filter {clause : List Char} {condition : Document} (own : clause ∈ [c.condition, c.having])
      (merged : Filter.Merged (clauseCondition clause) condition) :
      MergedStage c (.filter condition)
  | group {id accumulators whole : Document} (keys : Merges (keyEntries c.grouping) id)
      (accumulated : Merges (accumulatorEntries c.fields c.grouping) accumulators)
      (joined : Merges (("_id", .doc id) :: accumulators) whole)
      (shown : (Stage.group id accumulators).toDocument = [("$group", .doc whole)]) :
      MergedStage c (.group id accumulators)
  | sort {keys : Document} (merges : Merges (sortEntries c.ordering) keys) :
      MergedStage c (.sort keys)
  | skip (n : Int) : MergedStage c (.skip n)
  | limit (n : Int) : MergedStage c (.limit n)

/-- A command whose documents merge the items of the clauses of a statement. -/
inductive MergedCommand (s : List Char) : Command → Prop where
  | find {c : SelectClauses} {query : Find} (found : SelectClauses.read? s = some c)
      (filter : Filter.Merged (clauseCondition c.condition) query.filter)
      (projection : Merges (projectionEntries c.fields) query.projection)
      (sort : ∀ keys ∈ query.sort, Merges (sortEntries c.ordering) keys) :
      MergedCommand s (.find query)
  | aggregate {c : SelectClauses} {collection : String} {pipeline : List Stage}
      (found : SelectClauses.read? s = some c) (stages : ∀ stage ∈ pipeline, MergedStage c stage) :
      MergedCommand s (.aggregate collection pipeline)
  | insert {c : InsertClauses} {row : List Char} {collection : String} {document : Document}
      (found : InsertClauses.read? s = some c) (closed : firstGroup? c.rows = some row)
      (merges : Merges (insertedEntries c.columns row) document) :
      MergedCommand s (.insertOne collection document)
  | update {c : UpdateClauses} {collection : String} {filter assigned : Document}
      (found : UpdateClauses.read? s = some c)
      (merged : Filter.Merged (clauseCondition (trim c.condition)) filter)
      (merges : Merges (assignmentEntries c.assignments) assigned) :
      MergedCommand s (.updateMany collection filter [("$set", .doc assigned)])
  | delete {c : DeleteClauses} {collection : String} {filter : Document}
      (found : DeleteClauses.read? s = some c)
      (merged : Filter.Merged (clauseCondition (trim c.condition)) filter) :
      MergedCommand s (.deleteMany collection filter)

theorem merged_clause (clause : List Char) : Filter.Merged (clauseCondition clause)
    (if clause.isEmpty then [] else filterOf clause) := by
  have merged := Filter.merged_ofCondition (clauseCondition clause)
  unfold clauseCondition at merged ⊢
  split
  next missing => rwa [if_pos missing] at merged
  next present => rwa [if_neg present] at merged

theorem merges_projection (fields : List Char) :
    Merges (projectionEntries fields) (projection fields) := by
  unfold projection projectionEntries
  split
  · exact merges_nil
  · exact merges_ofEntries _

theorem mergedStage_group (c : SelectClauses) : MergedStage c (groupStage c.fields c.grouping) := by
  have key (id : Document) : Merges [("_id", .doc id)] [("_id", .doc id)] :=
    merges_ofEntries [("_id", .doc id)]
  exact .group (merges_ofEntries _) (merges_ofEntries _) ((key _).setAll _) rfl

theorem mergedStage_of_mem {c : SelectClauses} {limit skip : Option Int} {collection : String}
    {pipeline : List Stage} (made : aggregateCommand c limit skip = .aggregate collection pipeline)
    {stage : Stage} (member : stage ∈ pipeline) : MergedStage c stage := by
  rcases stage_cases made member with ⟨clause, own, present, rfl⟩ | rfl | rfl | ⟨n, rfl⟩ | ⟨n, rfl⟩
  · have merged := merged_clause clause
    rw [if_neg (by simpa using present)] at merged
    exact .filter own merged
  · exact mergedStage_group c
  · exact .sort (merges_ofEntries _)
  · exact .skip n
  · exact .limit n

theorem merges_insertedDocument (columns row : List Char) :
    Merges (insertedEntries columns row) (insertedDocument (items columns) (items row)) := by
  unfold insertedDocument insertedEntries
  split
  · exact merges_ofEntries _
  · exact merges_ofEntries _

theorem mergedCommand_of_compiled {s : List Char} {command : Command}
    (compiled : Compiled s command) : MergedCommand s command := by
  cases compiled with
  | @find c limit skip found whole =>
    refine .find found (merged_clause c.condition) (merges_projection c.fields) ?_
    intro keys chosen
    dsimp only at chosen
    split at chosen
    next => simp at chosen
    next =>
      obtain rfl := Option.some.inj chosen
      exact merges_ofEntries _
  | @aggregate c limit skip found grouped =>
    cases made : aggregateCommand c limit skip with
    | aggregate collection pipeline =>
      exact .aggregate found fun stage member => mergedStage_of_mem made member
    | find | insertOne | updateMany | deleteMany | unknown => cases made
  | @insert c row found closed =>
    exact .insert found closed (merges_insertedDocument c.columns row)
  | @update c found => exact .update found (merged_clause (trim c.condition)) (merges_ofEntries _)
  | @delete c found => exact .delete found (merged_clause (trim c.condition))

/-- In every document of a compiled command, at any depth, the names are distinct. A document that
is built from items has the names in the order in which the items first give them, and under each
name the value that was given last. The document of the command has the documents so built under
their own names, and nothing else. -/
theorem documents_of_compile (sql : String) (command : Command)
    (compiled : compile sql = .ok command) :
    (∀ entries, .doc entries ∈ (Value.doc command.toDocument).parts →
      (Document.keys entries).Nodup) ∧
    MergedCommand (normalize sql.toList) command ∧
    ∀ name, command.toDocument.lookup name = command.field? name := by
  have made := compiled_of_compile compiled
  refine ⟨?_, mergedCommand_of_compiled made, ?_⟩
  · intro entries inside
    exact regular_of_compiled made _ inside
  · intro name
    exact (command.field?_eq_lookup name).symm

/-- An alias that hits the group key, columns that repeat, and a name that a condition tests
twice. -/
theorem documents_of_compile_grouped :
    let sql := "SELECT b, SUM(x) AS b, MAX(y) AS _id FROM t WHERE a=1 AND b=2 AND a=3 GROUP BY a, c, a"
    let pipeline : List Stage := [
      .filter [("a", .doc [("$eq", .string "3")]), ("b", .doc [("$eq", .string "2")])],
      .group [("a", .string "$a"), ("c", .string "$c")]
        [("b", .doc [("$sum", .string "$x")]), ("_id", .doc [("$max", .string "$y")])]]
    compile sql = .ok (.aggregate "t" pipeline) ∧
      (∀ entries, .doc entries ∈ (Value.doc (Command.aggregate "t" pipeline).toDocument).parts →
        (Document.keys entries).Nodup) ∧
      MergedCommand (normalize sql.toList) (.aggregate "t" pipeline) ∧
      (Command.aggregate "t" pipeline).toDocument.lookup "pipeline" =
        some (.list (pipeline.map fun stage => .doc stage.toDocument)) := by
  intro sql pipeline
  let c : SelectClauses := {
    fields := "b, SUM(x) AS b, MAX(y) AS _id".toList, collection := "t".toList
    condition := "a=1 AND b=2 AND a=3".toList, grouping := "a, c, a".toList
    having := [], ordering := [], counts := ⟨none, none, none⟩ }
  -- The clauses are found by evaluation, and the documents are made from them one at a time.
  have kind : kind? (normalize sql.toList) = some .select := by decide +kernel
  have found : SelectClauses.read? (normalize sql.toList) = some c := by decide +kernel
  have filter : filterOf c.condition =
      [("a", .doc [("$eq", .string "3")]), ("b", .doc [("$eq", .string "2")])] := by cbv
  have group : groupStage c.fields c.grouping = .group [("a", .string "$a"), ("c", .string "$c")]
      [("b", .doc [("$sum", .string "$x")]), ("_id", .doc [("$max", .string "$y")])] := by cbv
  have compiled : compile sql = .ok (.aggregate "t" pipeline) := by
    have made : aggregateCommand c none none = .aggregate "t" pipeline := by
      rw [aggregateCommand, filter, group]
      rfl
    rw [← made]
    simp only [compile, kind, Kind.compile, compileSelect, found]
    rfl
  obtain ⟨distinct, merged, named⟩ := documents_of_compile sql _ compiled
  exact ⟨compiled, distinct, merged, named "pipeline"⟩

end SqlToMongo.Statement
