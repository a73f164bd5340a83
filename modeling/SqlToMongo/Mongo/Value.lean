import SqlToMongo.Decimal.Binary64
import SqlToMongo.Json.Basic

/-!
# Values and documents

A document is a list of named values in order. Documents that are built entry by entry go through
`Document.set`, which keeps a name's first place and its last value, so their names stay distinct.
-/

namespace SqlToMongo.Mongo

open Decimal

inductive Value where
  | null
  | bool (b : Bool)
  | int (n : Int)
  | float (x : Binary64)
  | string (s : String)
  | list (items : List Value)
  | doc (entries : List (String × Value))
  deriving Inhabited, Repr

/-- Named values in order. -/
abbrev Document := List (String × Value)

namespace Document

/-- Stores a value under a name: in place when the name is taken, else at the end. -/
def set : Document → String → Value → Document
  | [], key, value => [(key, value)]
  | (k, v) :: rest, key, value =>
    if k = key then (k, value) :: rest else (k, v) :: set rest key value

/-- The names in order. -/
def keys (d : Document) : List String := d.map (·.1)

/-- Stores one named value after another. -/
def setAll (d : Document) (entries : List (String × Value)) : Document :=
  entries.foldl (fun d (key, value) => d.set key value) d

/-- The document that storing the entries one after another gives. -/
def ofEntries (entries : List (String × Value)) : Document :=
  setAll [] entries

@[simp]
theorem keys_set (d : Document) (key : String) (value : Value) :
    (d.set key value).keys = if key ∈ d.keys then d.keys else d.keys ++ [key] := by
  induction d with
  | nil => simp [set, keys]
  | cons e rest ih =>
    obtain ⟨k, v⟩ := e
    simp only [set]
    by_cases h : k = key
    · simp [h, keys]
    · have h' : key ≠ k := fun e => h e.symm
      simp only [h, if_false]
      simp only [keys, List.map_cons, List.mem_cons, h', false_or] at ih ⊢
      rw [ih]
      split <;> simp_all

/-- Storing a value keeps names distinct. -/
theorem nodup_keys_set {d : Document} (h : d.keys.Nodup) (key : String) (value : Value) :
    (d.set key value).keys.Nodup := by
  rw [keys_set]
  split
  next => exact h
  next absent =>
    refine List.nodup_append.mpr ⟨h, by simp, fun a member b last same => absent ?_⟩
    rwa [← List.mem_singleton.mp last, ← same]

end Document

namespace Value

mutual

/-- A value as JSON, given how numbers with a fraction are written. -/
def toJson (float : Binary64 → Json) : Value → Json
  | .null => .null
  | .bool b => .bool b
  | .int n => .int n
  | .float x => float x
  | .string s => .string s
  | .list items => .array (itemsToJson float items)
  | .doc entries => .object (entriesToJson float entries)

def itemsToJson (float : Binary64 → Json) : List Value → List Json
  | [] => []
  | item :: rest => toJson float item :: itemsToJson float rest

def entriesToJson (float : Binary64 → Json) : List (String × Value) → List (String × Json)
  | [] => []
  | (key, value) :: rest => (key, toJson float value) :: entriesToJson float rest

end

end Value

end SqlToMongo.Mongo
