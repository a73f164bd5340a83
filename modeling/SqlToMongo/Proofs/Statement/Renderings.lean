import SqlToMongo.Proofs.Mongo.Calls
import SqlToMongo.Proofs.Statement.Documents

/-!
# The two formats of a compiled statement

A compiled statement can be shown as a shell text and as a command document. The name of its
collection was cut out of the statement at a gap, so it has none, and its documents are regular. So
the shell text tells all parts of the command, and these are what the document is made of.

## Main result

`render_iff_toDocument`: two statements have one shell text exactly when they have one document.
-/

namespace SqlToMongo.Statement

open Mongo Sql Text

/-! ### Names of collections -/

theorem mem_of_mem_trim {s : List Char} {c : Char} (member : c ∈ trim s) : c ∈ s :=
  (List.dropWhile_sublist isBlank).subset ((trimEnd_isPrefix _).subset member)

theorem isPart_of_cutAfter? {α : Type} {isPart : Char → Bool} {accept : List Char → Option α}
    {s front : List Char} {a : α} (found : cutAfter? isPart accept s = some (front, a)) :
    ∀ c ∈ front, isPart c = true := by
  induction s generalizing front a with
  | nil => simp [cutAfter?] at found
  | cons c rest ih =>
    simp only [cutAfter?] at found
    split at found
    next part =>
      split at found
      next inner =>
        obtain ⟨rfl, rfl⟩ := by simpa using found
        exact List.forall_mem_cons.mpr ⟨part, ih inner⟩
      next =>
        obtain ⟨value, -, same⟩ := Option.map_eq_some_iff.mp found
        obtain ⟨rfl, rfl⟩ := Prod.mk.inj same
        simpa using part
    next => cases found

theorem isGap_of_isCollectionChar {c : Char} (part : SelectClauses.isCollectionChar c = true) :
    isGap c = false := by
  simp only [SelectClauses.isCollectionChar, Bool.and_eq_true, Bool.not_eq_true'] at part
  exact part.1

theorem SelectClauses.gapless {s : List Char} {c : SelectClauses} (found : read? s = some c) :
    ∀ letter ∈ c.collection, isGap letter = false := by
  simp only [read?, Option.bind_eq_bind, Option.bind_eq_some_iff, Prod.exists, Option.pure_def,
    Option.some.injEq] at found
  obtain ⟨start, -, body, -, fields, collection, condition, grouping, having, ordering, counts, cut,
    rfl⟩ := found
  intro letter member
  -- With fields or without, the collection stands behind a FROM.
  have source : ∃ t, source? t =
      some (collection, condition, grouping, having, ordering, counts) := by
    rcases (Option.orElse_eq_some _ _ _).mp cut with found | ⟨_, found⟩
    · obtain ⟨t, -, accepted, -⟩ := cutBefore?_eq_some_iff.mp found
      exact ⟨t, accepted⟩
    · split at found
      next =>
        obtain ⟨accepted, _⟩ := by simpa using found
        exact ⟨' ' :: body, accepted⟩
      next => simp at found
  obtain ⟨t, accepted⟩ := source
  simp only [source?, Option.bind_eq_bind, Option.bind_eq_some_iff, Prod.exists, Option.pure_def,
    Option.some.injEq, Prod.mk.injEq] at accepted
  obtain ⟨_, _, name, _, ran, _, _, _, _, _, _, rfl, _⟩ := accepted
  obtain ⟨_, _, inside, _⟩ := run?_eq_some_iff.mp ran
  exact isGap_of_isCollectionChar (inside letter (mem_of_mem_trim member))

theorem InsertClauses.gapless {s : List Char} {c : InsertClauses} (found : read? s = some c) :
    ∀ letter ∈ c.collection, isGap letter = false := by
  simp only [read?, Option.bind_eq_bind, Option.bind_eq_some_iff, Prod.exists, Option.pure_def,
    Option.some.injEq] at found
  obtain ⟨_, _, _, _, collection, columns, rows, cut, rfl⟩ := found
  intro letter member
  exact isGap_of_isCollectionChar (isPart_of_cutAfter? cut letter member)

theorem gapless_of_compiled {s : List Char} {command : Command} (compiled : Compiled s command) :
    ∀ letter ∈ command.collection.toList, isGap letter = false := by
  intro letter member
  cases compiled with
  | find _ _ found _ =>
    exact SelectClauses.gapless found letter
      (by simpa [findCommand, Command.collection] using member)
  | aggregate _ _ found _ =>
    exact SelectClauses.gapless found letter
      (by simpa [aggregateCommand, Command.collection] using member)
  | @insert c _ found _ =>
    have inside : letter ∈ trim c.collection := by simpa [Command.collection] using member
    exact InsertClauses.gapless found letter (mem_of_mem_trim inside)
  | update found =>
    obtain ⟨w, ⟨_, _, isCollection, _, _, _, _⟩, _⟩ := UpdateClauses.read?_eq_some_iff.mp found
    exact isCollection.2 letter (by simpa [Command.collection] using member)
  | delete found =>
    obtain ⟨w, ⟨_, _, isCollection, _⟩, _⟩ := DeleteClauses.read?_eq_some_iff.mp found
    exact isCollection.2 letter (by simpa [Command.collection] using member)

theorem renderable_of_compiled {s : List Char} {command : Command}
    (compiled : Compiled s command) : Shell.Renderable command where
  gapless := gapless_of_compiled compiled
  regular := regular_of_compiled compiled
  known := by cases compiled <;> simp [findCommand, aggregateCommand, Command.kind?]
  limited := by
    intro q isFind unlimited
    cases compiled with
    | find limit skip found whole =>
      obtain rfl := Command.find.inj isFind
      have none : limit = none := unlimited
      simp [none]
    | aggregate | insert | update | delete => cases isFind

/-- Two statements that compile have one shell text exactly when they have one command document.
The shell text tells the kind of the command, its collection, and all its documents and counts.
Integers are equal by value; the two zeros of numbers with a fraction differ, as their texts do.
Texts are Unicode here: bytes that are not UTF-8, each of which a shell text shows as U+FFFD, are
not among them. -/
theorem render_iff_toDocument {sql sql' : String} {a b : Command} (compiled : compile sql = .ok a)
    (compiled' : compile sql' = .ok b) :
    (Shell.render a = Shell.render b ↔ a.toDocument = b.toDocument) ∧
    (Shell.render a = Shell.render b ↔ Shell.Alike a b) := by
  have renderable := renderable_of_compiled (compiled_of_compile compiled)
  have renderable' := renderable_of_compiled (compiled_of_compile compiled')
  refine ⟨⟨fun same => ?_, fun same => ?_⟩, fun same => ?_, Shell.Alike.render_eq⟩
  · exact (Shell.alike_of_render renderable renderable' same).toDocument_eq
  · exact (Shell.alike_of_toDocument renderable renderable' same).render_eq
  · exact Shell.alike_of_render renderable renderable' same

/-- A collection whose name is the text of a query, and one number spelled in two ways. -/
theorem render_iff_toDocument_nested :
    let query : Command := .find ⟨"a", [], [], none, none, some 3⟩
    let deletion : Command := .deleteMany "a.find(\x7b\x7d).limit(3)" []
    let update : Command :=
      .updateMany "a.find(1)" [] [("$set", .doc [("n", .float ⟨0x3FE0000000000000⟩)])]
    (compile "SELECT * FROM a LIMIT 3" = .ok query ∧
      compile "DELETE FROM a.find(\x7b\x7d).limit(3)" = .ok deletion ∧
      Shell.render query ≠ Shell.render deletion) ∧
    compile "UPDATE a.find(1) SET n = 0.5" = .ok update ∧
      compile "update a.find(1) set n=+.50" = .ok update ∧ Shell.Alike update update := by
  intro query deletion update
  have queried : compile "SELECT * FROM a LIMIT 3" = .ok query := by cbv
  have deleted : compile "DELETE FROM a.find(\x7b\x7d).limit(3)" = .ok deletion := by cbv
  have apart : query.toDocument ≠ deletion.toDocument := by
    simp [query, deletion, Command.toDocument]
  -- Evaluation finds the clauses and reads the literal.
  have updated (sql : String) (item value : List Char)
      (kind : kind? (normalize sql.toList) = some .update)
      (found : UpdateClauses.read? (normalize sql.toList) = some ⟨"a.find(1)".toList, item, []⟩)
      (alone : items item = [item])
      (assigned : assignment? item = some ("n", (Literal.classify value).toValue))
      (half : Literal.classify value = .float ⟨0x3FE0000000000000⟩) :
      compile sql = .ok update := by
    rw [half] at assigned
    simp only [compile, kind, Kind.compile, compileUpdate, found, alone, List.filterMap_cons,
      assigned]
    rfl
  have first : compile "UPDATE a.find(1) SET n = 0.5" = .ok update :=
    updated _ "n = 0.5".toList " 0.5".toList (by decide +kernel) (by decide +kernel)
      (by decide +kernel) rfl (by decide +kernel)
  have second : compile "update a.find(1) set n=+.50" = .ok update :=
    updated _ "n=+.50".toList "+.50".toList (by decide +kernel) (by decide +kernel)
      (by decide +kernel) rfl (by decide +kernel)
  refine ⟨⟨queried, deleted, fun same => apart ?_⟩, first, second, ?_⟩
  · exact (render_iff_toDocument queried deleted).1.mp same
  · exact (render_iff_toDocument first second).2.mp rfl

end SqlToMongo.Statement
