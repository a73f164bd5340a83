import SqlToMongo.Proofs.Condition.Tiling
import SqlToMongo.Proofs.Filter.Meaning

/-!
# A clause with content filters

Reading a condition drops empty parts, takes parentheses off and never fails. Whatever the clause
looks like, a token that is neither a parenthesis nor AND or OR stands in one of the blocks that the
leaves tile the clause with. A leaf has a key, so the filter has one.

## Main result

`filterOf_ne_nil_of_content`: the filter of a clause with such a token is not empty.
-/

namespace SqlToMongo

open Mongo Sql

/-! ### Leaves with keys -/

namespace Sql

/-- A token that is no connective is kept in some block. -/
theorem Tiles.exists_mem {ts : List Token} {blocks : List (List Token)} (tiles : Tiles ts blocks)
    {t : Token} (member : t ∈ ts) (content : t.kind.isConnective = false) :
    ∃ b ∈ blocks, t ∈ b := by
  induction tiles with
  | nil => simp at member
  | drop connective _ ih =>
    rcases List.mem_cons.mp member with rfl | member
    · simp [connective] at content
    · exact ih member
  | block _ _ ih =>
    rcases List.mem_append.mp member with member | member
    · exact ⟨_, List.mem_cons_self, member⟩
    · obtain ⟨b, listed, inside⟩ := ih member
      exact ⟨b, List.mem_cons_of_mem _ listed, inside⟩

namespace Condition

mutual

/-- A condition with a leaf has a key. -/
theorem keys_ne_nil_of_leaves : ∀ c : Condition, c.leaves ≠ [] → c.keys ≠ []
  | .compare _ _ _, _ => by simp [keys]
  | .member _ _ _, _ => by simp [keys]
  | .truthy _, _ => by simp [keys]
  | .any _, _ => by simp [keys]
  | .all terms, nonempty => by
    rw [leaves] at nonempty
    rw [keys]
    exact keysAll_ne_nil_of_leaves terms nonempty

theorem keysAll_ne_nil_of_leaves :
    ∀ terms : List Condition, leavesAll terms ≠ [] → keysAll terms ≠ []
  | [], nonempty => absurd rfl nonempty
  | term :: rest, nonempty => by
    rw [leavesAll, ne_eq, List.append_eq_nil_iff, not_and_or] at nonempty
    rw [keysAll]
    rcases nonempty with first | others
    · exact List.append_ne_nil_of_left_ne_nil (keys_ne_nil_of_leaves term first) _
    · exact List.append_ne_nil_of_right_ne_nil _ (keysAll_ne_nil_of_leaves rest others)

end

theorem leaves_ne_nil_of_content {clause : List Char} {t : Token} (member : t ∈ Token.lex clause)
    (content : t.kind.isConnective = false) : (parse clause).leaves ≠ [] := by
  obtain ⟨blocks, tiles, made⟩ := tiled_termsOf (Token.lex clause)
  obtain ⟨b, listed, _⟩ := tiles.exists_mem member content
  rw [parse, leaves]
  intro none
  rw [none, List.forall₂_nil_right_iff] at made
  simp [made] at listed

end Condition

end Sql

/-! ### Filters -/

namespace Mongo

theorem Document.setAll_ne_nil {d : Document} {entries : List (String × Value)}
    (nonempty : d ≠ [] ∨ entries ≠ []) : d.setAll entries ≠ [] := by
  induction entries generalizing d with
  | nil => exact nonempty.resolve_right (by simp)
  | cons entry rest ih =>
    have stored : d.set entry.1 entry.2 ≠ [] := by
      cases d with
      | nil => simp [set]
      | cons first others =>
        rw [set]
        split <;> simp
    exact ih (.inl stored)

theorem Filter.ofCondition_ne_nil {c : Condition} (keyed : c.keys ≠ []) : ofCondition c ≠ [] := by
  rw [ofCondition, store_eq_setAll]
  apply Document.setAll_ne_nil
  right
  rw [← keys_entries] at keyed
  intro empty
  simp [empty, Document.keys] at keyed

end Mongo

namespace Statement

/-- Whatever else a clause holds, one token that is no connective makes its filter ask for
something. -/
theorem filterOf_ne_nil_of_content {clause : List Char} {t : Token} (member : t ∈ Token.lex clause)
    (content : t.kind.isConnective = false) : filterOf clause ≠ [] := by
  apply Filter.ofCondition_ne_nil
  exact Condition.keys_ne_nil_of_leaves _ (Condition.leaves_ne_nil_of_content member content)

end Statement

end SqlToMongo
