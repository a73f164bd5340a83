import SqlToMongo.Statement.Select

/-!
# What a filter means

A condition and its filter are both read under an assignment of truth to the single tests. The
conjuncts of a condition are stored into one document, and a conjunct that stores under a key
already taken replaces what was there. As long as the keys of the conjuncts are distinct nothing
is replaced, the document is the list of the conjuncts' entries, and it means what the condition
means.

## Main result

`satisfied_filter_eq_holds`: a condition without shared keys and its filter have one meaning.
-/

namespace SqlToMongo

open Mongo Sql

/-- Which single tests of a field hold, and which texts without an operator. -/
structure Assignment where
  test : (field operator : String) → Value → Bool
  truthy : String → Bool

/-! ### Conditions -/

namespace Sql.Condition

mutual

/-- The truth of a condition. -/
def holds (σ : Assignment) : Condition → Bool
  | .compare field op value => σ.test field op.name (.string value)
  | .member field test values => σ.test field test.name (.list (values.map .string))
  | .truthy text => σ.truthy text
  | .any terms => holdsSome σ terms
  | .all terms => holdsEvery σ terms

def holdsSome (σ : Assignment) : List Condition → Bool
  | [] => false
  | term :: rest => holds σ term || holdsSome σ rest

def holdsEvery (σ : Assignment) : List Condition → Bool
  | [] => true
  | term :: rest => holds σ term && holdsEvery σ rest

end

mutual

/-- The keys of the conjuncts of a condition, those of nested conjunctions included. -/
def keys : Condition → List String
  | .compare field _ _ => [field]
  | .member field _ _ => [field]
  | .truthy text => [text]
  | .any _ => ["$or"]
  | .all terms => keysAll terms

def keysAll : List Condition → List String
  | [] => []
  | term :: rest => keys term ++ keysAll rest

end

mutual

/-- The terms of the disjunctions in a condition, at any depth. -/
def alternatives : Condition → List Condition
  | .any terms => terms ++ alternativesAll terms
  | .all terms => alternativesAll terms
  | _ => []

def alternativesAll : List Condition → List Condition
  | [] => []
  | term :: rest => alternatives term ++ alternativesAll rest

end

/-- No two conjuncts of the condition, or of an alternative in it, have one key. -/
def Distinct (c : Condition) : Prop :=
  ∀ conjunction ∈ c :: c.alternatives, conjunction.keys.Nodup

instance (c : Condition) : Decidable c.Distinct :=
  inferInstanceAs (Decidable (∀ conjunction ∈ c :: c.alternatives, conjunction.keys.Nodup))

end Sql.Condition

/-! ### Filters -/

namespace Mongo.Document

theorem keys_append (front back : Document) : keys (front ++ back) = front.keys ++ keys back := by
  simp [keys]

theorem setAll_append (d : Document) (front back : List (String × Value)) :
    d.setAll (front ++ back) = (d.setAll front).setAll back :=
  List.foldl_append

theorem set_eq_append {d : Document} {key : String} (fresh : key ∉ d.keys) (value : Value) :
    d.set key value = d ++ [(key, value)] := by
  induction d with
  | nil => rfl
  | cons entry rest ih =>
    obtain ⟨k, v⟩ := entry
    simp only [keys, List.map_cons, List.mem_cons, not_or] at fresh
    simp only [set, if_neg (Ne.symm fresh.1), ih fresh.2, List.cons_append]

/-- Nothing is replaced while the keys are distinct. -/
theorem setAll_eq_append {d : Document} {entries : List (String × Value)}
    (nodup : (keys (d ++ entries)).Nodup) : d.setAll entries = d ++ entries := by
  induction entries generalizing d with
  | nil => simp [setAll]
  | cons entry rest ih =>
    obtain ⟨key, value⟩ := entry
    have fresh : key ∉ d.keys := by
      rw [keys_append, List.nodup_append] at nodup
      exact fun taken => nodup.2.2 key taken key (by simp [keys]) rfl
    have step : d.setAll ((key, value) :: rest) = (d.set key value).setAll rest := rfl
    rw [List.append_cons] at nodup ⊢
    rw [step, set_eq_append fresh, ih nodup]

end Mongo.Document

namespace Mongo.Filter

mutual

/-- A filter is satisfied when each of its entries is. -/
def satisfied (σ : Assignment) : Document → Bool
  | [] => true
  | (key, value) :: rest => satisfiedEntry σ key value && satisfied σ rest

def satisfiedEntry (σ : Assignment) (key : String) : Value → Bool
  | .list filters => key == "$or" && satisfiedSome σ filters
  | .doc [(operator, value)] => σ.test key operator value
  | .doc [("$regex", value), ("$options", .string "i")] => σ.test key "$regex" value
  | .bool true => σ.truthy key
  | _ => false

def satisfiedSome (σ : Assignment) : List Value → Bool
  | [] => false
  | .doc filter :: rest => satisfied σ filter || satisfiedSome σ rest
  | _ :: rest => satisfiedSome σ rest

end

mutual

/-- What storing a condition stores, in order. -/
def entries : Condition → List (String × Value)
  | .compare field op value => [(field, comparison op value)]
  | .member field test values => [(field, membership test values)]
  | .truthy text => [(text, .bool true)]
  | .any terms => [("$or", .list (alternatives terms))]
  | .all terms => entriesAll terms

def entriesAll : List Condition → List (String × Value)
  | [] => []
  | term :: rest => entries term ++ entriesAll rest

end

/-! ### Storing -/

mutual

/-- Storing a condition stores its entries one after another, over whatever was there. -/
theorem store_eq_setAll (d : Document) : ∀ c : Condition, store d c = d.setAll (entries c)
  | .compare _ _ _ => rfl
  | .member _ _ _ => rfl
  | .truthy _ => rfl
  | .any _ => rfl
  | .all terms => by
    simp only [store, entries]
    exact storeAll_eq_setAll d terms

theorem storeAll_eq_setAll (d : Document) :
    ∀ terms : List Condition, storeAll d terms = d.setAll (entriesAll terms)
  | [] => rfl
  | term :: rest => by
    simp only [storeAll, entriesAll, Document.setAll_append]
    rw [store_eq_setAll d term, storeAll_eq_setAll _ rest]

end

mutual

theorem keys_entries : ∀ c : Condition, Document.keys (entries c) = c.keys
  | .compare _ _ _ => rfl
  | .member _ _ _ => rfl
  | .truthy _ => rfl
  | .any _ => rfl
  | .all terms => by
    simp only [entries, Condition.keys]
    exact keys_entriesAll terms

theorem keys_entriesAll :
    ∀ terms : List Condition, Document.keys (entriesAll terms) = Condition.keysAll terms
  | [] => rfl
  | term :: rest => by
    simp only [entriesAll, Condition.keysAll, Document.keys_append]
    rw [keys_entries term, keys_entriesAll rest]

end

/-- The filter of a condition whose conjuncts have distinct keys is the list of their entries. -/
theorem ofCondition_eq_entries {c : Condition} (distinct : c.keys.Nodup) :
    ofCondition c = entries c := by
  have nodup : Document.keys ([] ++ entries c) |>.Nodup := by
    rw [List.nil_append, keys_entries]
    exact distinct
  rw [ofCondition, store_eq_setAll, Document.setAll_eq_append nodup, List.nil_append]

/-! ### Meaning -/

@[simp]
theorem satisfied_append (σ : Assignment) (front back : Document) :
    satisfied σ (front ++ back) = (satisfied σ front && satisfied σ back) := by
  induction front with
  | nil => simp [satisfied]
  | cons entry rest ih =>
    obtain ⟨key, value⟩ := entry
    simp only [List.cons_append, satisfied, ih, Bool.and_assoc]

theorem satisfiedEntry_comparison (σ : Assignment) (field : String) (op : Comparison)
    (value : String) :
    satisfiedEntry σ field (comparison op value) = σ.test field op.name (.string value) := by
  cases op <;> simp [comparison, satisfiedEntry, Comparison.name]

mutual

/-- The entries of a condition mean what it means, when no alternative in it shares keys. -/
theorem satisfied_entries (σ : Assignment) : ∀ c : Condition,
    (∀ term ∈ c.alternatives, term.keys.Nodup) → satisfied σ (entries c) = c.holds σ
  | .compare field op value, _ => by
    simp [entries, satisfied, satisfiedEntry_comparison, Condition.holds]
  | .member field test values, _ => by
    simp [entries, membership, satisfied, satisfiedEntry, Condition.holds]
  | .truthy text, _ => by
    simp [entries, satisfied, satisfiedEntry, Condition.holds]
  | .any terms, distinct => by
    -- The alternatives have keys of their own, which no key of the conjuncts around them meets.
    simp only [Condition.alternatives, List.mem_append] at distinct
    simp [entries, satisfied, satisfiedEntry, Condition.holds,
      satisfiedSome_alternatives σ terms (fun term member => distinct term (.inl member))
        (fun term member => distinct term (.inr member))]
  | .all terms, distinct => by
    simp only [Condition.alternatives] at distinct
    simp only [entries, Condition.holds]
    exact satisfied_entriesAll σ terms distinct

theorem satisfied_entriesAll (σ : Assignment) : ∀ terms : List Condition,
    (∀ term ∈ Condition.alternativesAll terms, term.keys.Nodup) →
      satisfied σ (entriesAll terms) = Condition.holdsEvery σ terms
  | [], _ => rfl
  | term :: rest, distinct => by
    simp only [Condition.alternativesAll, List.mem_append] at distinct
    simp only [entriesAll, satisfied_append, Condition.holdsEvery]
    rw [satisfied_entries σ term fun t member => distinct t (.inl member),
      satisfied_entriesAll σ rest fun t member => distinct t (.inr member)]

-- Each alternative is stored into a document of its own, which starts empty.
theorem satisfiedSome_alternatives (σ : Assignment) : ∀ terms : List Condition,
    (∀ term ∈ terms, term.keys.Nodup) →
    (∀ term ∈ Condition.alternativesAll terms, term.keys.Nodup) →
      satisfiedSome σ (alternatives terms) = Condition.holdsSome σ terms
  | [], _, _ => rfl
  | term :: rest, own, inner => by
    simp only [Condition.alternativesAll, List.mem_append] at inner
    have filter : store [] term = entries term := ofCondition_eq_entries (own term (by simp))
    simp only [alternatives, satisfiedSome, Condition.holdsSome, filter]
    rw [satisfied_entries σ term fun t member => inner t (.inl member),
      satisfiedSome_alternatives σ rest (fun t member => own t (by simp [member]))
        fun t member => inner t (.inr member)]

end

theorem satisfied_ofCondition (σ : Assignment) {c : Condition} (distinct : c.Distinct) :
    satisfied σ (ofCondition c) = c.holds σ := by
  rw [ofCondition_eq_entries (distinct c (by simp))]
  exact satisfied_entries σ c fun term member => distinct term (by simp [member])

/-- A condition of any nesting, or the one read from any clause, means the same as its filter, as
long as no two conjuncts of it or of an alternative in it share a key. -/
theorem satisfied_filter_eq_holds (σ : Assignment) :
    (∀ c : Condition, c.Distinct → satisfied σ (ofCondition c) = c.holds σ) ∧
    ∀ clause : List Char, (Condition.parse clause).Distinct →
      satisfied σ (Statement.filterOf clause) = (Condition.parse clause).holds σ :=
  ⟨fun _ distinct => satisfied_ofCondition σ distinct,
    fun _ distinct => satisfied_ofCondition σ distinct⟩

/-- One key at two depths of a condition is not shared. -/
theorem satisfied_filter_eq_holds_nested :
    let σ : Assignment := ⟨fun field _ _ => field == "a" || field == "c", fun text => text == "d"⟩
    let c : Condition := .all [.compare "a" .gt "1", .all [.any [.compare "a" .regex "x",
      .all [.member "c" .isIn ["1", "2"], .any [.truthy "d", .compare "c" .ne "2"]]]]]
    let clause := "a > 1 AND (a LIKE x OR (c IN (1, 2) AND (d OR c != 2)))".toList
    (c.Distinct ∧ c.holds σ = true ∧ satisfied σ (ofCondition c) = true) ∧
      (Condition.parse clause).Distinct ∧ (Condition.parse clause).holds σ = true ∧
        satisfied σ (Statement.filterOf clause) = true := by
  intro σ c clause
  have tree : c.Distinct := by decide
  have read : (Condition.parse clause).Distinct := by decide +kernel
  have truth : (Condition.parse clause).holds σ = true := by decide +kernel
  exact ⟨⟨tree, by decide, ((satisfied_filter_eq_holds σ).1 c tree).trans (by decide)⟩, read, truth,
    ((satisfied_filter_eq_holds σ).2 clause read).trans truth⟩

end Mongo.Filter

end SqlToMongo
