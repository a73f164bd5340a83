import Mathlib
import SqlToMongo.Proofs.Condition.Leaves
import SqlToMongo.Proofs.Filter.Content
import SqlToMongo.Proofs.Statement.Layout
import SqlToMongo.Statement.Compile

/-!
# Conditions of UPDATE and DELETE

An empty filter changes or deletes a whole collection. This module says which statements lead to
one: those without a WHERE, and those whose WHERE holds nothing but parentheses, AND and OR. What
the WHERE of a statement is comes from the texts that the readers of the two statements accept,
which are stated first.

## Main results

`DeleteClauses.read?_eq_some_iff`, `UpdateClauses.read?_eq_some_iff`: the texts of the statements.
`content_filters`: a condition with content never becomes the filter that everything passes.
-/

namespace SqlToMongo.Statement

open Mongo Sql Text

/-! ### Texts of the statements -/

/-- The text from WHERE to the end of a statement, with the condition in it; or nothing. -/
inductive WherePart : Option (List Char) → List Char → Prop where
  | missing : WherePart none []
  | present {o clause : List Char} :
      Opening ["where"] o → NoGapAhead clause → WherePart (some clause) (o ++ clause)

/-- A name of a collection in these statements: a word between gaps. -/
def IsCollection (name : List Char) : Prop :=
  name ≠ [] ∧ ∀ c ∈ name, isGap c = false

/-- The texts of a DELETE on a collection, with the condition of its WHERE if it has one. The
condition is everything after the WHERE that follows the collection. -/
inductive Deletes (collection : List Char) : Option (List Char) → List Char → Prop where
  | intro {word from_ part : List Char} {condition : Option (List Char)} :
      Spelled "delete" word → Opening ["from"] from_ → IsCollection collection →
      WherePart condition part → Deletes collection condition (word ++ from_ ++ collection ++ part)

/-- The texts of an UPDATE. The condition is everything after the first WHERE that follows the
SET. -/
inductive Updates (collection assignments : List Char) :
    Option (List Char) → List Char → Prop where
  | intro {word gap set part : List Char} {condition : Option (List Char)} :
      Spelled "update" word → Gap gap → IsCollection collection → Opening ["set"] set →
      NoGapAhead (assignments ++ part) → WherePart condition part →
      (∀ pre back, assignments = pre ++ back → back ≠ [] →
        ∀ other, ¬WherePart other (back ++ part)) →
      Updates collection assignments condition
        (word ++ gap ++ collection ++ set ++ assignments ++ part)

theorem IsCollection.noGapAhead {name : List Char} (isCollection : IsCollection name)
    (rest : List Char) : NoGapAhead (name ++ rest) := by
  intro c first
  rw [List.head?_append_of_ne_nil _ isCollection.1] at first
  exact isCollection.2 c (List.mem_of_head? first)

theorem run?_collection {s name rest : List Char} :
    run? (!isGap ·) s = some (name, rest) ↔
      s = name ++ rest ∧ IsCollection name ∧ ∀ c ∈ rest.head?, isGap c = true := by
  rw [run?_eq_some_iff]
  simp [IsCollection, and_assoc]

theorem wherePart_some_iff {s clause : List Char} :
    WherePart (some clause) s ↔ keywords? ["where"] s = some clause := by
  rw [keywords?_eq_some_iff (by decide)]
  constructor
  · rintro ⟨⟩
    exact ⟨_, ‹_›, rfl, ‹_›⟩
  · rintro ⟨o, opening, rfl, ahead⟩
    exact .present opening ahead

theorem wherePart_none_iff {s : List Char} : WherePart none s ↔ s = [] := by
  constructor
  · rintro ⟨⟩
    rfl
  · rintro rfl
    exact .missing

/-- Where a condition is read there is a gap or the end. -/
theorem WherePart.isGap_ahead {w : Option (List Char)} {part : List Char}
    (isPart : WherePart w part) : ∀ c ∈ part.head?, isGap c = true := by
  intro c first
  cases isPart with
  | missing => simp at first
  | present opening ahead =>
    obtain ⟨d, o, rfl, gap⟩ := opening.head_isGap
    obtain rfl : d = c := by simpa using first
    exact gap

theorem condition?_eq_some_iff {s clause : List Char} :
    condition? s = some clause ↔ ∃ w, WherePart w s ∧ w.getD [] = clause := by
  simp only [Option.exists, wherePart_none_iff, wherePart_some_iff, condition?]
  cases opened : keywords? ["where"] s with
  | some body =>
    have nonempty : s ≠ [] := by
      rintro rfl
      simp [keywords?, gap?] at opened
    simp [nonempty]
  | none => cases s <;> simp

theorem condition?_eq_none_iff {s : List Char} :
    condition? s = none ↔ ∀ w, ¬WherePart w s := by
  rw [Option.eq_none_iff_forall_ne_some]
  constructor
  · intro refused w isPart
    exact refused _ (condition?_eq_some_iff.mpr ⟨w, isPart, rfl⟩)
  · intro refused clause found
    obtain ⟨w, isPart, _⟩ := condition?_eq_some_iff.mp found
    exact refused w isPart

theorem DeleteClauses.read?_eq_some_iff {s : List Char} {c : DeleteClauses} :
    read? s = some c ↔ ∃ w, Deletes c.collection w s ∧ w.getD [] = c.condition := by
  simp only [read?, Option.bind_eq_bind, Option.bind_eq_some_iff, Prod.exists, Option.pure_def,
    Option.some.injEq]
  constructor
  · rintro ⟨afterWord, wordFound, afterFrom, fromFound, collection, part, ran, condition, found, rfl⟩
    obtain ⟨word, spelled, rfl⟩ := keyword?_eq_some_iff.mp wordFound
    obtain ⟨o, opening, rfl, _⟩ := (keywords?_eq_some_iff (by decide)).mp fromFound
    obtain ⟨rfl, isCollection, _⟩ := run?_collection.mp ran
    obtain ⟨w, isPart, same⟩ := condition?_eq_some_iff.mp found
    refine ⟨w, ?_, same⟩
    have deletes := Deletes.intro spelled opening isCollection isPart
    simpa [List.append_assoc] using deletes
  · rintro ⟨w, ⟨spelled, opening, isCollection, isPart⟩, same⟩
    refine ⟨_, keyword?_eq_some_iff.mpr ⟨_, spelled, by simp only [List.append_assoc]⟩,
      _, (keywords?_eq_some_iff (by decide)).mpr ⟨_, opening, rfl, isCollection.noGapAhead _⟩,
      _, _, run?_collection.mpr ⟨rfl, isCollection, isPart.isGap_ahead⟩,
      _, condition?_eq_some_iff.mpr ⟨w, isPart, same⟩, rfl⟩

theorem UpdateClauses.read?_eq_some_iff {s : List Char} {c : UpdateClauses} :
    read? s = some c ↔
      ∃ w, Updates c.collection c.assignments w s ∧ w.getD [] = c.condition := by
  simp only [read?, Option.bind_eq_bind, Option.bind_eq_some_iff, Prod.exists, Option.pure_def,
    Option.some.injEq]
  constructor
  · rintro ⟨afterWord, wordFound, afterGap, gapFound, collection, afterName, ran, body, setFound,
      assignments, condition, cut, rfl⟩
    obtain ⟨word, spelled, rfl⟩ := keyword?_eq_some_iff.mp wordFound
    obtain ⟨g, gap, rfl, _⟩ := gap?_eq_some_iff.mp gapFound
    obtain ⟨rfl, isCollection, _⟩ := run?_collection.mp ran
    obtain ⟨o, opening, rfl, ahead⟩ := (keywords?_eq_some_iff (by decide)).mp setFound
    obtain ⟨part, rfl, found, earlier⟩ := cutBefore?_eq_some_iff.mp cut
    obtain ⟨w, isPart, same⟩ := condition?_eq_some_iff.mp found
    refine ⟨w, ?_, same⟩
    have updates := Updates.intro spelled gap isCollection opening ahead isPart
      fun pre back whole nonempty => condition?_eq_none_iff.mp (earlier pre back whole nonempty)
    simpa [List.append_assoc] using updates
  · rintro ⟨w, ⟨spelled, gap, isCollection, opening, ahead, isPart, earlier⟩, same⟩
    obtain ⟨d, o, shape, isGap⟩ := opening.head_isGap
    refine ⟨_, keyword?_eq_some_iff.mpr ⟨_, spelled, by simp only [List.append_assoc]⟩,
      _, gap?_eq_some_iff.mpr ⟨_, gap, rfl, isCollection.noGapAhead _⟩,
      _, _, run?_collection.mpr ⟨rfl, isCollection, by simp [shape, isGap]⟩,
      _, (keywords?_eq_some_iff (by decide)).mpr ⟨_, opening, rfl, ahead⟩,
      _, _, cutBefore?_eq_some_iff.mpr
        ⟨_, rfl, condition?_eq_some_iff.mpr ⟨w, isPart, same⟩, ?_⟩, rfl⟩
    intro pre back whole nonempty
    exact condition?_eq_none_iff.mpr (earlier pre back whole nonempty)

/-! ### Statements and their commands -/

/-- The commands that a statement of a kind can become. -/
def Kind.commands : Kind → List CommandKind
  | .select => [.find, .aggregate]
  | .insert => [.insertOne]
  | .update => [.updateMany]
  | .delete => [.deleteMany]

theorem Kind.mem_commands {kind : Kind} {s : List Char} {command : Command}
    (compiled : kind.compile s = .ok command) :
    ∃ made ∈ kind.commands, command.kind? = some made := by
  cases kind with
  | select =>
    simp only [Kind.compile, compileSelect] at compiled
    split at compiled
    next => cases compiled
    next c _ =>
      simp only [bind, Except.bind, pure, Except.pure] at compiled
      -- Whatever the three numbers are, the command depends on the grouping.
      split at compiled <;> try cases compiled
      split at compiled <;> try cases compiled
      split at compiled <;> try cases compiled
      split
      · exact ⟨.find, by decide, rfl⟩
      · exact ⟨.aggregate, by decide, rfl⟩
  | insert =>
    simp only [Kind.compile, compileInsert] at compiled
    split at compiled
    next => cases compiled
    next =>
      split at compiled
      next => cases compiled
      next =>
        cases compiled
        exact ⟨.insertOne, by decide, rfl⟩
  | update =>
    simp only [Kind.compile, compileUpdate] at compiled
    split at compiled
    next => cases compiled
    next =>
      cases compiled
      exact ⟨.updateMany, by decide, rfl⟩
  | delete =>
    simp only [Kind.compile, compileDelete] at compiled
    split at compiled
    next => cases compiled
    next =>
      cases compiled
      exact ⟨.deleteMany, by decide, rfl⟩

theorem exists_kind_of_compile {sql : String} {command : Command}
    (compiled : compile sql = .ok command) :
    ∃ kind : Kind, kind.compile (normalize sql.toList) = .ok command := by
  simp only [compile] at compiled
  split at compiled
  next kind _ => exact ⟨kind, compiled⟩
  next => cases compiled

theorem compileDelete_of_compile {sql collection : String} {filter : Document}
    (compiled : compile sql = .ok (.deleteMany collection filter)) :
    compileDelete (normalize sql.toList) = .ok (.deleteMany collection filter) := by
  obtain ⟨kind, made⟩ := exists_kind_of_compile compiled
  obtain ⟨k, listed, same⟩ := kind.mem_commands made
  obtain rfl : .deleteMany = k := Option.some.inj same
  cases kind with
  | delete => exact made
  | select | insert | update => simp [Kind.commands] at listed

theorem compileUpdate_of_compile {sql collection : String} {filter update : Document}
    (compiled : compile sql = .ok (.updateMany collection filter update)) :
    compileUpdate (normalize sql.toList) = .ok (.updateMany collection filter update) := by
  obtain ⟨kind, made⟩ := exists_kind_of_compile compiled
  obtain ⟨k, listed, same⟩ := kind.mem_commands made
  obtain rfl : .updateMany = k := Option.some.inj same
  cases kind with
  | update => exact made
  | select | insert | delete => simp [Kind.commands] at listed

theorem compileDelete_eq_ok_iff {s : List Char} {collection : String} {filter : Document} :
    compileDelete s = .ok (.deleteMany collection filter) ↔
      ∃ w, Deletes collection.toList w s ∧ filter = optionalFilter (w.getD []) := by
  constructor
  · intro compiled
    unfold compileDelete at compiled
    split at compiled
    next => cases compiled
    next c found =>
      obtain ⟨w, deletes, same⟩ := DeleteClauses.read?_eq_some_iff.mp found
      simp only [Except.ok.injEq, Command.deleteMany.injEq] at compiled
      obtain ⟨rfl, rfl⟩ := compiled
      exact ⟨w, by rwa [String.toList_ofList], by rw [same]⟩
  · rintro ⟨w, deletes, rfl⟩
    have found : DeleteClauses.read? s = some ⟨collection.toList, w.getD []⟩ :=
      DeleteClauses.read?_eq_some_iff.mpr ⟨w, deletes, rfl⟩
    simp [compileDelete, found]

theorem updates_of_compileUpdate {s : List Char} {collection : String} {filter update : Document}
    (compiled : compileUpdate s = .ok (.updateMany collection filter update)) :
    ∃ assignments w, Updates collection.toList assignments w s ∧
      filter = optionalFilter (w.getD []) := by
  unfold compileUpdate at compiled
  split at compiled
  next => cases compiled
  next c found =>
    obtain ⟨w, updates, same⟩ := UpdateClauses.read?_eq_some_iff.mp found
    simp only [Except.ok.injEq, Command.updateMany.injEq] at compiled
    obtain ⟨rfl, rfl, _⟩ := compiled
    exact ⟨c.assignments, w, by rwa [String.toList_ofList], by rw [same]⟩

/-! ### Conditions without content -/

/-- A clause of nothing but parentheses, AND and OR. -/
def Hollow (clause : List Char) : Prop :=
  ∀ t ∈ Token.lex clause, t.kind.isConnective = true

theorem kinds_lex_trimStart (s : List Char) :
    (Token.lex (trimStart s)).map Token.kind = (Token.lex s).map Token.kind := by
  cases start : trimStart s with
  | nil =>
    have blanks := List.dropWhile_eq_nil_iff.mp start
    rw [Token.lex_blanks blanks, Token.lex_blanks (by simp)]
  | cons c rest =>
    have visible : isBlank c = false := not_of_mem_head?_dropWhile (by rw [← trimStart, start]; rfl)
    -- The blanks before the first token are the only thing that differs.
    have trimmed : Token.next? (c :: rest) =
        some (⟨[], (Token.scan c rest).1, (Token.scan c rest).2.1⟩, (Token.scan c rest).2.2) := by
      simp [Token.next?, visible]
    have whole : Token.next? s = some (⟨s.takeWhile isBlank, (Token.scan c rest).1,
        (Token.scan c rest).2.1⟩, (Token.scan c rest).2.2) := by
      rw [Token.next?, ← trimStart, start]
    rw [Token.lex_of_next? trimmed, Token.lex_of_next? whole]
    rfl

/-- A text that ends visibly has nothing to lose at its end. -/
theorem trim_eq_trimStart {s : List Char} (last : ∀ c ∈ s.getLast?, isBlank c = false) :
    trim s = trimStart s := by
  have ends : trim (trimStart s) = trimStart s := by
    refine trim_eq_self (fun c first => not_of_mem_head?_dropWhile first) fun c final => last c ?_
    obtain ⟨front, whole⟩ := List.dropWhile_suffix isBlank (l := s)
    rw [← trimStart] at whole
    rw [← whole, List.getLast?_append, Option.mem_def.mp final]
    rfl
  have again : trimStart (trimStart s) = trimStart s := by
    cases start : trimStart s with
    | nil => rfl
    | cons c rest =>
      have visible : isBlank c = false :=
        not_of_mem_head?_dropWhile (by rw [← trimStart, start]; rfl)
      simp [trimStart, visible]
  rwa [trim, again] at ends

theorem hollow_of_optionalFilter {clause : List Char}
    (last : ∀ c ∈ clause.getLast?, isBlank c = false) (empty : optionalFilter clause = []) :
    Hollow clause := by
  have hollow : ∀ t ∈ Token.lex (trim clause), t.kind.isConnective = true := by
    intro t member
    unfold optionalFilter at empty
    split at empty
    next nothing =>
      rw [List.isEmpty_iff.mp nothing, Token.lex_blanks (by simp)] at member
      simp at member
    next =>
      -- A token with content would have left a key in the filter.
      by_contra content
      exact filterOf_ne_nil_of_content member (by simpa using content) empty
  rw [trim_eq_trimStart last] at hollow
  intro t member
  have kind : t.kind ∈ (Token.lex (trimStart clause)).map Token.kind := by
    rw [kinds_lex_trimStart]
    exact List.mem_map_of_mem member
  obtain ⟨u, listed, same⟩ := List.mem_map.mp kind
  rw [← same]
  exact hollow u listed

/-- The condition ends where the statement ends. -/
theorem WherePart.getLast? {w : Option (List Char)} {front part : List Char}
    (isPart : WherePart w part) (last : ∀ c ∈ (front ++ part).getLast?, isBlank c = false) :
    ∀ clause ∈ w, ∀ c ∈ clause.getLast?, isBlank c = false := by
  intro clause member c final
  cases isPart with
  | missing => simp at member
  | present opening ahead =>
    obtain rfl := Option.some.inj member
    exact last c (by simp [List.getLast?_append, Option.mem_def.mp final])

theorem Deletes.getLast? {collection s : List Char} {w : Option (List Char)}
    (deletes : Deletes collection w s) (last : ∀ c ∈ s.getLast?, isBlank c = false) :
    ∀ clause ∈ w, ∀ c ∈ clause.getLast?, isBlank c = false := by
  obtain ⟨_, _, _, isPart⟩ := deletes
  exact isPart.getLast? last

theorem Updates.getLast? {collection assignments s : List Char} {w : Option (List Char)}
    (updates : Updates collection assignments w s)
    (last : ∀ c ∈ s.getLast?, isBlank c = false) :
    ∀ clause ∈ w, ∀ c ∈ clause.getLast?, isBlank c = false := by
  obtain ⟨_, _, _, _, _, isPart, _⟩ := updates
  exact isPart.getLast? last

/-- A condition with content never becomes the filter that everything passes, however malformed it
is. So a statement that deletes or updates a whole collection has no WHERE, or a hollow one. The
condition of a DELETE is everything after the WHERE that follows its collection. -/
theorem content_filters :
    (∀ clause, (∃ t ∈ Token.lex clause, t.kind.isConnective = false) → filterOf clause ≠ []) ∧
    (∀ sql collection, compile sql = .ok (.deleteMany collection []) →
      ∃ w, Deletes collection.toList w (normalize sql.toList) ∧ ∀ clause ∈ w, Hollow clause) ∧
    (∀ sql collection update, compile sql = .ok (.updateMany collection [] update) →
      ∃ assignments w, Updates collection.toList assignments w (normalize sql.toList) ∧
        ∀ clause ∈ w, Hollow clause) ∧
    ∀ s collection filter, compileDelete s = .ok (.deleteMany collection filter) ↔
      ∃ w, Deletes collection.toList w s ∧ filter = optionalFilter (w.getD []) := by
  refine ⟨?_, ?_, ?_, fun s collection filter => compileDelete_eq_ok_iff⟩
  · rintro clause ⟨t, member, content⟩
    exact filterOf_ne_nil_of_content member content
  · intro sql collection compiled
    obtain ⟨w, deletes, empty⟩ := compileDelete_eq_ok_iff.mp (compileDelete_of_compile compiled)
    refine ⟨w, deletes, fun clause member => ?_⟩
    obtain rfl := Option.mem_def.mp member
    have last := deletes.getLast? (getLast?_normalize sql.toList) clause member
    exact hollow_of_optionalFilter last empty.symm
  · intro sql collection update compiled
    obtain ⟨assignments, w, updates, empty⟩ :=
      updates_of_compileUpdate (compileUpdate_of_compile compiled)
    refine ⟨assignments, w, updates, fun clause member => ?_⟩
    obtain rfl := Option.mem_def.mp member
    have last := updates.getLast? (getLast?_normalize sql.toList) clause member
    exact hollow_of_optionalFilter last empty.symm

/-- An unclosed parenthesis and an unterminated literal still filter, and a DELETE whose WHERE is
hollow takes the whole collection. -/
theorem content_filters_malformed :
    filterOf "or ( or 'x and".toList ≠ [] ∧
      ∃ w, Deletes "t".toList w (normalize "DELETE FROM t WHERE (OR )".toList) ∧
        ∀ clause ∈ w, Hollow clause :=
  ⟨content_filters.1 _ (by decide +kernel), content_filters.2.1 _ "t" (by cbv)⟩

end SqlToMongo.Statement
