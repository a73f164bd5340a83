import SqlToMongo.Mongo.Value
import SqlToMongo.Proofs.Filter.Meaning

/-!
# Documents built entry by entry

Storing entries one after another leaves each name where it occurred first, with the value it was
given last. So the names stay distinct. A value is regular when this holds of the documents at every
depth of it and all of its numbers are finite: storing regular values keeps a document regular.

## Main results

`merges_ofEntries`: the first place and the last value of every name.
`setAll_ofEntries`: merging entries before they are stored changes nothing.
`regular_ofCondition`: the filter of a condition is regular, the documents of its alternatives
included.
`merged_ofCondition`: the filter of a condition, and each of those documents, merges its conjuncts.
-/

namespace SqlToMongo.Mongo

open Sql

namespace Document

/-- The names stand in the order in which they first occur among the entries, and each holds the
value of its last entry. -/
structure Merges (entries : List (String × Value)) (d : Document) : Prop where
  names : d.keys = (keys entries).eraseDups
  values : ∀ key, d.lookup key = entries.reverse.lookup key

theorem lookup_entry (k key : String) (value : Value) (rest : Document) :
    List.lookup k ((key, value) :: rest) = if k = key then some value else rest.lookup k := by
  rw [List.lookup_cons]
  by_cases same : k = key
  · simp [same]
  · have other : (k == key) = false := by simpa using same
    simp [same, other]

theorem lookup_set (d : Document) (key : String) (value : Value) (k : String) :
    (d.set key value).lookup k = if k = key then some value else d.lookup k := by
  induction d with
  | nil => rw [set, lookup_entry]
  | cons entry rest ih =>
    obtain ⟨first, v⟩ := entry
    by_cases taken : first = key
    · rw [set, if_pos taken, lookup_entry, lookup_entry, taken]
      split <;> rfl
    · rw [set, if_neg taken, lookup_entry, lookup_entry, ih]
      by_cases same : k = key
      · have other : k ≠ first := fun equal => taken (equal.symm.trans same)
        rw [if_neg other, if_pos same, if_pos same]
      · rw [if_neg same, if_neg same]

theorem merges_nil : Merges [] [] :=
  ⟨rfl, fun _ => rfl⟩

theorem Merges.set {entries : List (String × Value)} {d : Document} (merges : Merges entries d)
    (key : String) (value : Value) : Merges (entries ++ [(key, value)]) (d.set key value) := by
  constructor
  · have last : keys (entries ++ [(key, value)]) = keys entries ++ [key] := keys_append _ _
    rw [keys_set, last, List.eraseDups_append, merges.names]
    by_cases taken : key ∈ keys entries
    · simp [taken, List.removeAll]
    · simp [taken, List.removeAll, List.eraseDups_cons]
  · intro k
    rw [lookup_set, merges.values, List.reverse_append, List.reverse_singleton,
      List.singleton_append, lookup_entry]

/-- Entry after entry, by induction on what is still to be stored. -/
theorem Merges.setAll {entries : List (String × Value)} {d : Document} (merges : Merges entries d)
    (more : List (String × Value)) : Merges (entries ++ more) (d.setAll more) := by
  induction more generalizing entries d with
  | nil => simpa [Document.setAll] using merges
  | cons entry rest ih =>
    have stored := ih (merges.set entry.1 entry.2)
    rwa [List.append_assoc, List.singleton_append] at stored

theorem merges_ofEntries (entries : List (String × Value)) :
    Merges entries (ofEntries entries) := by
  have merged := merges_nil.setAll entries
  rwa [List.nil_append] at merged

theorem nodup_keys_setAll {d : Document} (distinct : d.keys.Nodup)
    (entries : List (String × Value)) : (d.setAll entries).keys.Nodup := by
  induction entries generalizing d with
  | nil => exact distinct
  | cons entry rest ih => exact ih (nodup_keys_set distinct entry.1 entry.2)

/-! ### Storing what was stored before -/

theorem set_set (d : Document) (key : String) (first second : Value) :
    (d.set key first).set key second = d.set key second := by
  induction d with
  | nil => simp [set]
  | cons entry rest ih =>
    obtain ⟨k, v⟩ := entry
    by_cases taken : k = key
    · simp [set, taken]
    · simp [set, taken, ih]

/-- A name that is taken keeps its place, so it does not matter when its value is replaced. -/
theorem set_comm {d : Document} {key other : String} (taken : key ∈ d.keys) (apart : other ≠ key)
    (value v : Value) : (d.set other v).set key value = (d.set key value).set other v := by
  induction d with
  | nil => simp [keys] at taken
  | cons entry rest ih =>
    obtain ⟨k, old⟩ := entry
    by_cases here : k = key
    · have different : key ≠ other := Ne.symm apart
      simp [set, here, different]
    · have later : key ∈ keys rest := by
        simpa [keys, Ne.symm here] using taken
      by_cases second : k = other
      · simp [set, second, apart]
      · simp [set, here, second, ih later]

theorem set_setAll {key : String} {entries : List (String × Value)} (absent : key ∉ keys entries)
    {d : Document} (taken : key ∈ d.keys) (value : Value) :
    (d.setAll entries).set key value = (d.set key value).setAll entries := by
  induction entries generalizing d with
  | nil => rfl
  | cons entry rest ih =>
    obtain ⟨k, v⟩ := entry
    simp only [keys, List.map_cons, List.mem_cons, not_or] at absent
    have kept : key ∈ (d.set k v).keys := by
      rw [keys_set]
      split
      next => exact taken
      next => exact List.mem_append_left _ taken
    have inner := ih absent.2 kept
    rw [set_comm taken (Ne.symm absent.1)] at inner
    exact inner

theorem setAll_set {entries : Document} (distinct : entries.keys.Nodup) (d : Document)
    (key : String) (value : Value) :
    d.setAll (entries.set key value) = (d.setAll entries).set key value := by
  induction entries generalizing d with
  | nil => rfl
  | cons entry rest ih =>
    obtain ⟨k, v⟩ := entry
    obtain ⟨absent, distinct⟩ := List.nodup_cons.mp distinct
    by_cases same : k = key
    · subst same
      -- No later entry has the name, so its value can be replaced before they are stored.
      have taken : k ∈ (d.set k v).keys := by
        rw [keys_set]
        split
        next => assumption
        next => simp
      have later := set_setAll absent taken value
      rw [set_set] at later
      rw [set, if_pos rfl]
      exact later.symm
    · rw [set, if_neg same]
      exact ih distinct (d.set k v)

/-- Storing what entries were merged to is storing the entries. -/
theorem setAll_setAll {merged : Document} (distinct : merged.keys.Nodup) (d : Document)
    (entries : List (String × Value)) :
    d.setAll (merged.setAll entries) = (d.setAll merged).setAll entries := by
  induction entries generalizing merged with
  | nil => rfl
  | cons entry rest ih =>
    have later := ih (nodup_keys_set distinct entry.1 entry.2)
    rw [setAll_set distinct] at later
    exact later

theorem setAll_ofEntries (d : Document) (entries : List (String × Value)) :
    d.setAll (ofEntries entries) = d.setAll entries :=
  setAll_setAll (show (keys []).Nodup from List.nodup_nil) d entries

/-! ### Names that give their values -/

section Named

variable (value : String → Value)

theorem set_named {names : List String} {name : String} (taken : name ∈ names) :
    set (names.map fun n => (n, value n)) name (value name) =
      names.map fun n => (n, value n) := by
  induction names with
  | nil => simp at taken
  | cons first rest ih =>
    by_cases here : first = name
    · simp [set, here]
    · have later : name ∈ rest := by simpa [Ne.symm here] using taken
      simp [set, here, ih later]

theorem setAll_named (seen names : List String) :
    setAll (seen.eraseDups.map fun n => (n, value n)) (names.map fun n => (n, value n)) =
      (seen ++ names).eraseDups.map fun n => (n, value n) := by
  induction names generalizing seen with
  | nil => simp [setAll]
  | cons name rest ih =>
    have stored : set (seen.eraseDups.map fun n => (n, value n)) name (value name) =
        (seen ++ [name]).eraseDups.map fun n => (n, value n) := by
      rw [List.eraseDups_append]
      by_cases taken : name ∈ seen
      · -- The name is there with the value that is stored again.
        rw [set_named value (List.mem_eraseDups.mpr taken)]
        simp [taken, List.removeAll]
      · rw [set_eq_append (by simpa [keys, Function.comp_def] using taken)]
        simp [taken, List.removeAll, List.eraseDups_cons]
    have later := ih (seen ++ [name])
    rw [← stored, List.append_assoc, List.singleton_append] at later
    exact later

theorem ofEntries_named (names : List String) :
    ofEntries (names.map fun n => (n, value n)) = names.eraseDups.map fun n => (n, value n) :=
  setAll_named value [] names

end Named

/-! ### Where values come from -/

theorem mem_of_mem_set {d : Document} {key : String} {value : Value} {entry : String × Value}
    (member : entry ∈ d.set key value) : entry ∈ d ∨ entry.2 = value := by
  induction d with
  | nil =>
    obtain rfl := List.mem_singleton.mp member
    exact .inr rfl
  | cons first rest ih =>
    obtain ⟨k, v⟩ := first
    by_cases taken : k = key
    · rw [set, if_pos taken] at member
      rcases List.mem_cons.mp member with rfl | old
      · exact .inr rfl
      · exact .inl (List.mem_cons_of_mem _ old)
    · rw [set, if_neg taken] at member
      rcases List.mem_cons.mp member with rfl | later
      · exact .inl List.mem_cons_self
      · exact (ih later).imp_left (List.mem_cons_of_mem _)

theorem mem_of_mem_setAll {d : Document} {entries : List (String × Value)}
    {entry : String × Value} (member : entry ∈ d.setAll entries) :
    entry ∈ d ∨ ∃ stored ∈ entries, entry.2 = stored.2 := by
  induction entries generalizing d with
  | nil => exact .inl member
  | cons first rest ih =>
    rcases ih member with old | ⟨stored, listed, same⟩
    · rcases mem_of_mem_set old with kept | new
      · exact .inl kept
      · exact .inr ⟨first, List.mem_cons_self, new⟩
    · exact .inr ⟨stored, List.mem_cons_of_mem _ listed, same⟩

end Document

/-! ### Regular values -/

namespace Value

mutual

/-- A value with everything inside it. -/
def parts : Value → List Value
  | .list items => .list items :: partsOfItems items
  | .doc entries => .doc entries :: partsOfEntries entries
  | v => [v]

def partsOfItems : List Value → List Value
  | [] => []
  | item :: rest => parts item ++ partsOfItems rest

def partsOfEntries : List (String × Value) → List Value
  | [] => []
  | (_, value) :: rest => parts value ++ partsOfEntries rest

end

/-- A document has distinct names, a number is finite. -/
def IsSound : Value → Prop
  | .doc entries => (Document.keys entries).Nodup
  | .float x => x.isFinite = true
  | _ => True

def Regular (v : Value) : Prop :=
  ∀ part ∈ v.parts, part.IsSound

theorem mem_partsOfItems {part : Value} {items : List Value} :
    part ∈ partsOfItems items ↔ ∃ item ∈ items, part ∈ item.parts := by
  induction items with
  | nil => simp [partsOfItems]
  | cons item rest ih => simp [partsOfItems, ih]

theorem mem_partsOfEntries {part : Value} {entries : List (String × Value)} :
    part ∈ partsOfEntries entries ↔ ∃ entry ∈ entries, part ∈ entry.2.parts := by
  induction entries with
  | nil => simp [partsOfEntries]
  | cons entry rest ih => simp [partsOfEntries, ih]

theorem regular_list {items : List Value} :
    Regular (.list items) ↔ ∀ item ∈ items, item.Regular := by
  simp only [Regular, parts, List.forall_mem_cons, IsSound, true_and, mem_partsOfItems]
  constructor
  · intro sound item listed part inside
    exact sound part ⟨item, listed, inside⟩
  · rintro regular part ⟨item, listed, inside⟩
    exact regular item listed part inside

theorem regular_doc {entries : List (String × Value)} :
    Regular (.doc entries) ↔
      (Document.keys entries).Nodup ∧ ∀ entry ∈ entries, entry.2.Regular := by
  simp only [Regular, parts, List.forall_mem_cons, IsSound, mem_partsOfEntries]
  refine and_congr_right fun _ => ?_
  constructor
  · intro sound entry listed part inside
    exact sound part ⟨entry, listed, inside⟩
  · rintro regular part ⟨entry, listed, inside⟩
    exact regular entry listed part inside

/-- A value with nothing inside it. -/
theorem regular_iff_isSound {v : Value} (alone : v.parts = [v]) : v.Regular ↔ v.IsSound := by
  rw [Regular, alone, List.forall_mem_singleton]

@[simp]
theorem regular_null : Regular .null := (regular_iff_isSound rfl).mpr trivial

@[simp]
theorem regular_bool (b : Bool) : Regular (.bool b) := (regular_iff_isSound rfl).mpr trivial

@[simp]
theorem regular_int (n : Int) : Regular (.int n) := (regular_iff_isSound rfl).mpr trivial

@[simp]
theorem regular_string (s : String) : Regular (.string s) := (regular_iff_isSound rfl).mpr trivial

@[simp]
theorem regular_float {x : Decimal.Binary64} : Regular (.float x) ↔ x.isFinite = true :=
  regular_iff_isSound rfl

/-- A document with one entry. -/
theorem regular_single {key : String} {value : Value} (regular : value.Regular) :
    Regular (.doc [(key, value)]) :=
  regular_doc.mpr ⟨by simp [Document.keys], by simpa using regular⟩

theorem regular_setAll {d : Document} (regular : Regular (.doc d))
    {entries : List (String × Value)} (stored : ∀ entry ∈ entries, entry.2.Regular) :
    Regular (.doc (d.setAll entries)) := by
  obtain ⟨distinct, values⟩ := regular_doc.mp regular
  refine regular_doc.mpr ⟨Document.nodup_keys_setAll distinct entries, fun entry member => ?_⟩
  rcases Document.mem_of_mem_setAll member with old | ⟨new, listed, same⟩
  · exact values entry old
  · rw [same]
    exact stored new listed

theorem regular_empty : Regular (.doc []) :=
  regular_doc.mpr ⟨List.nodup_nil, by simp⟩

theorem regular_ofEntries {entries : List (String × Value)}
    (stored : ∀ entry ∈ entries, entry.2.Regular) : Regular (.doc (Document.ofEntries entries)) :=
  regular_setAll regular_empty stored

end Value

namespace Filter

open Value

theorem regular_comparison (op : Comparison) (value : String) : (comparison op value).Regular := by
  cases op with
  | regex => exact regular_doc.mpr ⟨by simp [Document.keys, Comparison.name], by simp⟩
  | eq | ne | gt | gte | lt | lte => exact regular_single (regular_string value)

theorem regular_membership (test : Membership) (values : List String) :
    (membership test values).Regular :=
  regular_single (regular_list.mpr (by simp))

mutual

/-- What a condition stores is regular. An alternative is a document that storing starts empty. -/
theorem regular_entries : ∀ c : Condition, ∀ entry ∈ entries c, entry.2.Regular
  | .compare field op value => by simpa [entries] using regular_comparison op value
  | .member field test values => by simpa [entries] using regular_membership test values
  | .truthy text => by simp [entries]
  | .any terms => by simpa [entries] using regular_list.mpr (regular_alternatives terms)
  | .all terms => by simpa only [entries] using regular_entriesAll terms

theorem regular_entriesAll :
    ∀ terms : List Condition, ∀ entry ∈ entriesAll terms, entry.2.Regular
  | [] => by simp [entriesAll]
  | term :: rest => by
    intro entry member
    rcases List.mem_append.mp member with first | later
    · exact regular_entries term entry first
    · exact regular_entriesAll rest entry later

theorem regular_alternatives :
    ∀ terms : List Condition, ∀ value ∈ alternatives terms, value.Regular
  | [] => by simp [alternatives]
  | term :: rest => by
    intro value member
    rcases List.mem_cons.mp member with rfl | later
    · rw [store_eq_setAll]
      exact regular_ofEntries (regular_entries term)
    · exact regular_alternatives rest value later

end

theorem regular_ofCondition (c : Condition) : Regular (.doc (ofCondition c)) := by
  rw [ofCondition, store_eq_setAll]
  exact regular_ofEntries (regular_entries c)

theorem merges_ofCondition (c : Condition) : Document.Merges (entries c) (ofCondition c) := by
  rw [ofCondition, store_eq_setAll]
  exact Document.merges_ofEntries (entries c)

/-- Each document in a list inside the value merges the conjuncts of one of the terms. -/
def Tries (terms : List Condition) (v : Value) : Prop :=
  ∀ items, .list items ∈ v.parts → ∀ inner, .doc inner ∈ items →
    ∃ term ∈ terms, Document.Merges (entries term) inner

/-- A filter merges the conjuncts of a condition, and each document that it tries as an alternative,
at any depth, merges those of an alternative in the condition. -/
structure Merged (c : Condition) (d : Document) : Prop where
  conjuncts : Document.Merges (entries c) d
  alternatives : Tries c.alternatives (.doc d)

theorem Tries.mono {terms more : List Condition} {v : Value} (tries : Tries terms v)
    (subset : terms ⊆ more) : Tries more v := by
  intro items inside inner listed
  obtain ⟨term, member, merges⟩ := tries items inside inner listed
  exact ⟨term, subset member, merges⟩

/-- A list inside a filter is inside what the condition stored. -/
theorem tries_ofCondition {c : Condition} {terms : List Condition}
    (stored : ∀ entry ∈ entries c, Tries terms entry.2) : Tries terms (.doc (ofCondition c)) := by
  intro items inside
  simp only [parts, List.mem_cons, reduceCtorEq, false_or, mem_partsOfEntries] at inside
  obtain ⟨entry, listed, inside⟩ := inside
  rw [ofCondition, store_eq_setAll] at listed
  rcases Document.mem_of_mem_setAll listed with old | ⟨source, member, same⟩
  · simp at old
  · exact stored source member items (same ▸ inside)

theorem merges_of_mem_alternatives {terms : List Condition} {inner : Document}
    (member : .doc inner ∈ alternatives terms) :
    ∃ term ∈ terms, Document.Merges (entries term) inner := by
  induction terms with
  | nil => simp [alternatives] at member
  | cons first rest ih =>
    rcases List.mem_cons.mp member with same | later
    · obtain rfl := Value.doc.inj same
      exact ⟨first, List.mem_cons_self, merges_ofCondition first⟩
    · obtain ⟨term, listed, merges⟩ := ih later
      exact ⟨term, List.mem_cons_of_mem _ listed, merges⟩

mutual

-- The lists of a filter are those of its memberships, which hold texts only, and those of its
-- disjunctions, which hold one document for each term.

theorem tries_entries : ∀ c : Condition, ∀ entry ∈ entries c, Tries c.alternatives entry.2
  | .compare field op value => by
    intro entry member items inside
    obtain rfl : entry = (field, comparison op value) := by simpa [entries] using member
    cases op <;> simp [comparison, parts, partsOfEntries] at inside
  | .member field test values => by
    intro entry member items inside inner listed
    obtain rfl : entry = (field, membership test values) := by simpa [entries] using member
    have texts : ∀ value ∈ items, ∃ s, value = .string s := by
      simp only [membership, parts, partsOfEntries, List.append_nil, List.mem_cons, reduceCtorEq,
        false_or, Value.list.injEq, mem_partsOfItems, List.mem_map] at inside
      rcases inside with rfl | ⟨_, ⟨text, _, rfl⟩, nested⟩
      · simp
      · simp [parts] at nested
    obtain ⟨s, same⟩ := texts _ listed
    cases same
  | .truthy text => by
    intro entry member items inside
    obtain rfl : entry = (text, .bool true) := by simpa [entries] using member
    simp [parts] at inside
  | .any terms => by
    intro entry member items inside inner listed
    obtain rfl : entry = ("$or", .list (alternatives terms)) := by simpa [entries] using member
    simp only [parts, List.mem_cons, Value.list.injEq, mem_partsOfItems] at inside
    rcases inside with rfl | ⟨value, tried, inside⟩
    · obtain ⟨term, own, merges⟩ := merges_of_mem_alternatives listed
      exact ⟨term, List.mem_append_left _ own, merges⟩
    · obtain ⟨term, nested, merges⟩ :=
        tries_alternatives terms value tried items inside inner listed
      exact ⟨term, List.mem_append_right _ nested, merges⟩
  | .all terms => by simpa only [entries, Condition.alternatives] using tries_entriesAll terms

theorem tries_entriesAll : ∀ terms : List Condition, ∀ entry ∈ entriesAll terms,
    Tries (Condition.alternativesAll terms) entry.2
  | [] => by simp [entriesAll]
  | first :: rest => by
    intro entry member
    rcases List.mem_append.mp member with here | later
    · exact (tries_entries first entry here).mono (List.subset_append_left _ _)
    · exact (tries_entriesAll rest entry later).mono (List.subset_append_right _ _)

theorem tries_alternatives : ∀ terms : List Condition, ∀ value ∈ alternatives terms,
    Tries (Condition.alternativesAll terms) value
  | [] => by simp [alternatives]
  | first :: rest => by
    intro value member
    rcases List.mem_cons.mp member with rfl | later
    · exact (tries_ofCondition (tries_entries first)).mono (List.subset_append_left _ _)
    · exact (tries_alternatives rest value later).mono (List.subset_append_right _ _)

end

theorem merged_ofCondition (c : Condition) : Merged c (ofCondition c) :=
  ⟨merges_ofCondition c, tries_ofCondition (tries_entries c)⟩

end Filter

end SqlToMongo.Mongo
