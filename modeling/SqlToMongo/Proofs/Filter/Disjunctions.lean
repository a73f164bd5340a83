import SqlToMongo.Proofs.Condition.Reading
import SqlToMongo.Proofs.Filter.Meaning

/-!
# Conjunctions of disjunctions

The disjunctions of one conjunction are all stored under the key `$or`, nested parentheses or
not, and each replaces the one before. So the filter of `(d₁) AND … AND (dₖ)` means its last
disjunction.

## Main result

`satisfied_conjunction_eq_last`: such a filter asks for the last disjunction, which is all that
the clause asks for only when there is just one.
-/

namespace SqlToMongo

open Mongo Sql

/-! ### One key for all -/

/-- Of values stored under one key the last is left. -/
theorem Mongo.Document.ofEntries_same_key (key : String) (values : List Value) (last : Value) :
    Document.ofEntries ((values ++ [last]).map fun value => (key, value)) = [(key, last)] := by
  -- Once the key is there, its one entry is replaced again and again.
  have taken : ∀ (values : List Value) (value : Value),
      Document.setAll [(key, value)] ((values ++ [last]).map fun value => (key, value)) =
        [(key, last)] := by
    intro values
    induction values with
    | nil => simp [Document.setAll, Document.set]
    | cons next rest ih =>
      intro value
      simpa [Document.setAll, Document.set] using ih next
  cases values with
  | nil => rfl
  | cons first rest => exact taken rest first

/-- The assignment under which exactly the tests of some fields hold. -/
def Assignment.onFields (fields : List String) : Assignment where
  test field _ _ := fields.contains field
  truthy _ := false

namespace Sql.Surface

/-! ### Disjunctions of tests -/

/-- A test of a field, as it is written. -/
structure FieldTest where
  field : Word
  test : Test

def FieldTest.atom (t : FieldTest) : Atom := .test t.field t.test

def FieldTest.condition (t : FieldTest) : Condition := t.test.condition t.field.text

/-- Two tests or more with OR between them. -/
structure Disjunction where
  first : FieldTest
  second : FieldTest
  others : List FieldTest

/-- Tests with OR between them. -/
def orSegment (t : FieldTest) : List FieldTest → Segment
  | [] => .atom t.atom
  | next :: rest => .or t.atom (orSegment next rest)

namespace Disjunction

def tests (d : Disjunction) : List FieldTest := d.first :: d.second :: d.others

def fields (d : Disjunction) : List String := d.tests.map (·.field.text)

def segment (d : Disjunction) : Segment := orSegment d.first (d.second :: d.others)

/-- Some test of the disjunction holds. -/
def holds (σ : Assignment) (d : Disjunction) : Bool := d.tests.any (·.condition.holds σ)

end Disjunction

/-- Disjunctions in parentheses with AND between them. -/
def conjunction : List Disjunction → Clause
  | [] => .empty
  | d :: rest => .and (.atom (.clause (.and d.segment .empty))) (conjunction rest)

theorem alternatives_orSegment (t : FieldTest) (rest : List FieldTest) :
    (orSegment t rest).alternatives = (t :: rest).map FieldTest.condition := by
  induction rest generalizing t with
  | nil => rfl
  | cons next rest ih =>
    rw [orSegment, Segment.alternatives, ih next]
    rfl

theorem Disjunction.condition_segment (d : Disjunction) :
    d.segment.condition = .any (d.tests.map FieldTest.condition) := by
  rw [segment, orSegment, Segment.condition, alternatives_orSegment]
  rfl

/-! ### The filter of a disjunction -/

/-- A test has one key and no alternatives. -/
theorem FieldTest.distinct (t : FieldTest) :
    t.condition.keys.Nodup ∧ t.condition.alternatives = [] := by
  obtain ⟨field, test⟩ := t
  cases test <;> simp [condition, Test.condition, Condition.keys, Condition.alternatives]

theorem alternativesAll_tests (tests : List FieldTest) :
    Condition.alternativesAll (tests.map FieldTest.condition) = [] := by
  induction tests with
  | nil => rfl
  | cons t rest ih => simp [Condition.alternativesAll, t.distinct.2, ih]

theorem holdsSome_tests (σ : Assignment) (tests : List FieldTest) :
    Condition.holdsSome σ (tests.map FieldTest.condition) =
      tests.any (·.condition.holds σ) := by
  induction tests with
  | nil => rfl
  | cons t rest ih => simp [Condition.holdsSome, ih]

/-- What a disjunction stores. -/
def Disjunction.value (d : Disjunction) : Value :=
  .list (Filter.alternatives (d.tests.map FieldTest.condition))

theorem Disjunction.satisfied_value (σ : Assignment) (d : Disjunction) :
    Filter.satisfied σ [("$or", d.value)] = d.holds σ := by
  have own : ∀ term ∈ d.tests.map FieldTest.condition, term.keys.Nodup := by
    intro term member
    obtain ⟨t, _, rfl⟩ := List.mem_map.mp member
    exact t.distinct.1
  have inner : ∀ term ∈ Condition.alternativesAll (d.tests.map FieldTest.condition),
      term.keys.Nodup := by
    simp [alternativesAll_tests]
  simp [Filter.satisfied, Filter.satisfiedEntry, value, holds, holdsSome_tests,
    Filter.satisfiedSome_alternatives σ _ own inner]

theorem entriesAll_conjunction (ds : List Disjunction) :
    Filter.entriesAll (conjunction ds).conditions = ds.map fun d => ("$or", d.value) := by
  induction ds with
  | nil => rfl
  | cons d rest ih =>
    simp only [conjunction, Clause.conditions, Segment.condition, Atom.condition,
      d.condition_segment, Filter.entriesAll, Filter.entries, ih]
    rfl

/-- The filter of disjunctions holds the last of them and nothing of the others. -/
theorem filterOf_conjunction (front : List Disjunction) (last : Disjunction) {s : List Char}
    (writes : (conjunction (front ++ [last])).Writes s) :
    Statement.filterOf s = [("$or", last.value)] := by
  have read : Condition.parse s = .all (conjunction (front ++ [last])).conditions :=
    congrArg Condition.all (Clause.termsOf_reads _ (reads_lex_of_writes writes))
  rw [Statement.filterOf, read, Filter.ofCondition, Filter.store_eq_setAll, Filter.entries,
    entriesAll_conjunction]
  have last := Document.ofEntries_same_key "$or" (front.map Disjunction.value) last.value
  simpa [Document.ofEntries, Function.comp_def] using last

/-! ### What is lost -/

theorem FieldTest.holds_onFields (fields : List String) (t : FieldTest) :
    t.condition.holds (.onFields fields) = fields.contains t.field.text := by
  obtain ⟨field, test⟩ := t
  cases test <;> rfl

theorem Disjunction.holds_onFields (fields : List String) (d : Disjunction) :
    d.holds (.onFields fields) = d.fields.any fields.contains := by
  simp [holds, Disjunction.fields, FieldTest.holds_onFields, List.any_map, Function.comp_def]

/-- Without a shared field, a disjunction does not follow from another. -/
theorem Disjunction.exists_only (d last : Disjunction)
    (apart : ∀ field ∈ d.fields, field ∉ last.fields) :
    ∃ σ, last.holds σ = true ∧ d.holds σ = false := by
  refine ⟨.onFields last.fields, ?_, ?_⟩
  · rw [holds_onFields]
    simp [Disjunction.fields, tests]
  · rw [holds_onFields, List.any_eq_false]
    intro field member
    simpa using apart field member

/-- Whatever its text, a clause of disjunctions in parentheses has a filter that is satisfied
exactly when the last disjunction holds. This is what the clause asks for, that all of them hold,
only when there is no other. -/
theorem satisfied_conjunction_eq_last (ds : List Disjunction) (nonempty : ds ≠ [])
    (distinct : (ds.flatMap Disjunction.fields).Nodup) (s : List Char)
    (writes : (conjunction ds).Writes s) :
    (∀ σ, Filter.satisfied σ (Statement.filterOf s) = (ds.getLast nonempty).holds σ) ∧
    ((∀ σ, Filter.satisfied σ (Statement.filterOf s) = ds.all (·.holds σ)) ↔ ds.length = 1) := by
  obtain ⟨front, last, rfl⟩ : ∃ front last, ds = front ++ [last] :=
    ⟨_, _, (List.dropLast_append_getLast nonempty).symm⟩
  have meaning : ∀ σ, Filter.satisfied σ (Statement.filterOf s) = last.holds σ := by
    intro σ
    rw [filterOf_conjunction front last writes, last.satisfied_value]
  refine ⟨by simpa using meaning, ?_, ?_⟩
  · intro every
    cases front with
    | nil => rfl
    | cons d rest =>
      -- The tests of the last disjunction alone satisfy the filter, and fail the first.
      have apart : ∀ field ∈ d.fields, field ∉ last.fields := by
        intro field here there
        simp only [List.cons_append, List.flatMap_cons, List.flatMap_append, List.flatMap_nil,
          List.append_nil, List.nodup_append] at distinct
        exact distinct.2.2 field here field (by simp [there]) rfl
      obtain ⟨σ, asked, failed⟩ := d.exists_only last apart
      have lost := (meaning σ).symm.trans (every σ)
      simp [asked, failed] at lost
  · intro single σ
    have alone : front = [] := by simpa using single
    simp [alone, meaning σ]

/-- Of three disjunctions, the last with three tests, only the last is asked for. -/
theorem satisfied_conjunction_eq_last_three :
    let equal (field value : Word) : FieldTest := ⟨field, .compare .eq (.word value)⟩
    let a := equal { chars := ['a'] } { chars := ['1'] }
    let b := equal { chars := ['b'] } { chars := ['2'] }
    let c := equal { chars := ['c'] } { chars := ['3'] }
    let d : FieldTest := ⟨{ chars := ['d'] }, .like (.quoted { mark := '"', content := ['%'] })⟩
    let e := equal { chars := ['e'] } { chars := ['5'] }
    let f : FieldTest := ⟨{ chars := ['f'] }, .member .notIn [.word { chars := ['6'] }]⟩
    let g := equal { chars := ['g'] } { chars := ['7'] }
    let ds : List Disjunction := [⟨a, b, []⟩, ⟨c, d, []⟩, ⟨e, f, [g]⟩]
    let s := ("( a = 1 or b = 2 ) and ( c = 3 or d like \"%\" ) and " ++
      "( e = 5 or f not in ( 6 ) or g = 7 ) ").toList
    (conjunction ds).Writes s ∧ (ds.flatMap Disjunction.fields).Nodup ∧
      Filter.satisfied (.onFields ["g"]) (Statement.filterOf s) = true ∧
      ¬ ∀ σ, Filter.satisfied σ (Statement.filterOf s) = ds.all (·.holds σ) := by
  intro equal a b c d e f g ds s
  have writes : (conjunction ds).Writes s := Clause.writes_text _
  have distinct : (ds.flatMap Disjunction.fields).Nodup := by decide
  obtain ⟨last, every⟩ := satisfied_conjunction_eq_last ds (by simp [ds]) distinct s writes
  exact ⟨writes, distinct, (last _).trans (by decide), fun all => by simpa [ds] using every.mp all⟩

/-- The first of two disjunctions fails, and yet the filter is satisfied. -/
theorem conjunction_loses_first :
    let equal (field value : Word) : FieldTest := ⟨field, .compare .eq (.word value)⟩
    let left : Disjunction :=
      ⟨equal { chars := ['a'] } { chars := ['1'] }, equal { chars := ['b'] } { chars := ['2'] }, []⟩
    let right : Disjunction :=
      ⟨equal { chars := ['c'] } { chars := ['3'] }, equal { chars := ['d'] } { chars := ['4'] }, []⟩
    let s := "( a = 1 or b = 2 ) and ( c = 3 or d = 4 ) ".toList
    let σ : Assignment := .onFields ["c"]
    (conjunction [left, right]).Writes s ∧
      ([left, right].flatMap Disjunction.fields).Nodup ∧
      Filter.satisfied σ (Statement.filterOf s) = true ∧
      [left, right].all (·.holds σ) = false := by
  intro equal left right s σ
  exact ⟨Clause.writes_text _, by decide, by decide +kernel, by decide⟩

end Sql.Surface

end SqlToMongo
