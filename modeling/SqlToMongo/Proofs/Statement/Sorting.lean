import SqlToMongo.Proofs.Mongo.Merging
import SqlToMongo.Proofs.Statement.Items
import SqlToMongo.Proofs.Statement.Mentions

/-!
# ORDER BY as it is written

A sort key may be any item of a list on one line. Its direction is a last word, ASC or DESC, behind
a gap. The reader looks for that word alone: a key may have these words in it, and a key without a
direction only must not end in one of them, since the word would be taken for a direction.

## Main result

`sortKeys_of_writes`: every text of an ORDER BY is read as its keys with their directions.
-/

namespace SqlToMongo.Statement

open Mongo Sql Text

namespace Surface

inductive Direction where
  | ascending
  | descending
  deriving DecidableEq, Repr

namespace Direction

def keyword : Direction → String
  | ascending => "asc"
  | descending => "desc"

def order : Direction → Int
  | ascending => 1
  | descending => -1

end Direction

/-- A gap character with a direction behind it. -/
def IsDirection : List Char → Prop
  | [] => False
  | c :: word => isGap c = true ∧ (Spelled "asc" word ∨ Spelled "desc" word)

/-- The text would be read as a key with a direction. -/
def EndsInDirection (s : List Char) : Prop :=
  ∃ ending ∈ s.tails, IsDirection ending

instance : DecidablePred IsDirection
  | [] => isFalse id
  | _ :: _ => inferInstanceAs (Decidable (_ ∧ _))

instance (s : List Char) : Decidable (EndsInDirection s) :=
  inferInstanceAs (Decidable (∃ ending ∈ s.tails, IsDirection ending))

/-- A sort key on one line. Without a direction it does not end in one. -/
structure SortItem where
  key : ItemText
  direction : Option Direction
  line : '\n' ∉ key.chars := by decide +kernel
  bare : direction = none → ¬EndsInDirection key.chars := by decide +kernel

def SortItem.entry (i : SortItem) : String × Value :=
  (String.ofList i.key.chars, .int ((i.direction.map Direction.order).getD 1))

/-- The texts of a sort key. -/
inductive SortItem.Writes (i : SortItem) : List Char → Prop where
  | bare : i.direction = none → i.Writes i.key.chars
  | directed {d : Direction} {g word : List Char} : i.direction = some d → Gap g →
      Spelled d.keyword word → i.Writes (i.key.chars ++ g ++ word)

theorem Direction.isLettered_keyword (d : Direction) : isLettered d.keyword = true := by
  cases d <;> decide

end Surface

open Surface

theorem isWord_iff {k : String} {word : List Char} :
    isWord k.toList word = true ↔ Spelled k word := by
  rw [isWord, beq_iff_eq, keyword?_eq_some_iff]
  simp [Spelled]

/-- The direction of a text and its key, when its last word is known. -/
theorem sortKey_append {rest last : List Char} (word : ∀ c ∈ last, isGap c = false)
    (gap : ∀ c ∈ rest.getLast?, isGap c = true) :
    sortKey (rest ++ last) =
      let key := (rest.reverse.dropWhile isGap).reverse
      let directed (direction : Int) : String × Int :=
        if rest.isEmpty || key.contains '\n' then (String.ofList (rest ++ last), 1)
        else (String.ofList (trim key), direction)
      if isWord "asc".toList last then directed 1
      else if isWord "desc".toList last then directed (-1)
      else (String.ofList (rest ++ last), 1) := by
  have inside : ∀ c ∈ last.reverse, (!isGap c) = true := fun c member => by
    simp [word c (List.mem_reverse.mp member)]
  have ends : ∀ c ∈ rest.reverse.head?, (!isGap c) = false := fun c first => by
    rw [List.head?_reverse] at first
    simp [gap c first]
  have found := (takeWhile_run (!isGap ·) last.reverse rest.reverse inside ends).1
  unfold sortKey
  simp only [List.reverse_append, found, List.reverse_reverse, List.length_append,
    Nat.add_sub_cancel, List.take_left']

theorem sortKey_directed (i : SortItem) (d : Direction) {g word : List Char} (gap : Gap g)
    (spelled : Spelled d.keyword word) :
    sortKey (i.key.chars ++ g ++ word) = (String.ofList i.key.chars, d.order) := by
  have ends := isBlank_ends_of_trim i.key.isItem.trimmed
  have behind : ∀ c ∈ (i.key.chars ++ g).getLast?, isGap c = true := by
    intro c last
    rw [List.getLast?_append_of_ne_nil _ gap.1] at last
    exact gap.2 c (List.mem_of_getLast? last)
  have key : ((i.key.chars ++ g).reverse.dropWhile isGap).reverse = i.key.chars := by
    have visible : ∀ c ∈ i.key.chars.reverse.head?, isGap c = false := fun c first => by
      rw [List.head?_reverse] at first
      exact isGap_eq_false (ends.2 c first)
    have spaces : ∀ c ∈ g.reverse, isGap c = true := fun c member =>
      gap.2 c (List.mem_reverse.mp member)
    rw [List.reverse_append, (takeWhile_run isGap _ _ spaces visible).2, List.reverse_reverse]
  have some : (i.key.chars ++ g).isEmpty = false := by simp [i.key.isItem.nonempty]
  have line : i.key.chars.contains '\n' = false := by simpa using i.line
  rw [sortKey_append (spelled.isGap_eq_false d.isLettered_keyword) behind]
  simp only [key, some, line, Bool.false_or, Bool.false_eq_true, if_false, i.key.isItem.trimmed]
  cases d with
  | ascending =>
    have found : isWord "asc".toList word = true := isWord_iff.mpr spelled
    rw [if_pos found, Direction.order]
  | descending =>
    have other : ¬isWord "asc".toList word = true := fun found =>
      absurd ((isWord_iff.mp found).unique spelled) (by decide)
    have found : isWord "desc".toList word = true := isWord_iff.mpr spelled
    rw [if_neg other, if_pos found, Direction.order]

theorem sortKey_bare {s : List Char} (bare : ¬EndsInDirection s) :
    sortKey s = (String.ofList s, 1) := by
  let last := (s.reverse.takeWhile (!isGap ·)).reverse
  let rest := (s.reverse.dropWhile (!isGap ·)).reverse
  have whole : rest ++ last = s := by
    rw [← List.reverse_append, List.takeWhile_append_dropWhile, List.reverse_reverse]
  have word : ∀ c ∈ last, isGap c = false := fun c member => by
    have inside := List.all_eq_true.mp List.all_takeWhile c (List.mem_reverse.mp member)
    simpa using inside
  have gap : ∀ c ∈ rest.getLast?, isGap c = true := fun c found => by
    rw [List.getLast?_reverse] at found
    simpa using not_of_mem_head?_dropWhile found
  -- The last word is no direction, or nothing stands before it.
  have alone (d : Direction) (spelled : Spelled d.keyword last) : rest = [] := by
    rcases List.eq_nil_or_concat rest with none | ⟨front, c, shape⟩
    · exact none
    · refine absurd ⟨c :: last, ?_, gap c (by simp [shape]), ?_⟩ bare
      · rw [List.mem_tails, ← whole, shape]
        exact ⟨front, by simp⟩
      · cases d with
        | ascending => exact .inl spelled
        | descending => exact .inr spelled
  have key := sortKey_append word gap
  rw [whole] at key
  rw [key]
  dsimp only
  split
  next found => simp [alone .ascending (isWord_iff.mp found)]
  next =>
    split
    next found => simp [alone .descending (isWord_iff.mp found)]
    next => rfl

theorem sortKey_of_writes {i : SortItem} {text : List Char} (writes : i.Writes text) :
    ((sortKey text).1, Value.int (sortKey text).2) = i.entry := by
  cases writes with
  | bare absent => rw [sortKey_bare (i.bare absent), SortItem.entry, absent]; rfl
  | @directed d _ _ present gap spelled =>
    rw [sortKey_directed i d gap spelled, SortItem.entry, present]
    rfl

theorem Surface.SortItem.Writes.isItem {i : SortItem} {text : List Char}
    (writes : i.Writes text) : IsItem text := by
  cases writes with
  | bare => exact i.key.isItem
  | @directed d g word _ gap spelled =>
    have letters := spelled.isWordBreak_eq_false d.isLettered_keyword
    rw [List.append_assoc]
    apply i.key.isItem.append
    · exact List.forall_mem_append.mpr ⟨(Opening.gap gap).unsplit (by simp),
        fun c member => unsplit_of_isWordBreak (letters c member)⟩
    · intro c last
      rw [List.getLast?_append_of_ne_nil _ (spelled.ne_nil d.isLettered_keyword)] at last
      exact isBlank_of_isWordBreak (letters c (List.mem_of_getLast? last))

/-- The keys of an ORDER BY stand in the order in which they first occur, each with the direction it
was given last. -/
theorem sortKeys_of_writes {sorted : List SortItem} {texts : List (List Char)}
    {ordering : List Char} (written : List.Forall₂ SortItem.Writes sorted texts)
    (listed : Listed texts ordering) :
    sortKeys ordering = .ofEntries (sorted.map SortItem.entry) ∧
      Document.Merges (sorted.map SortItem.entry) (sortKeys ordering) := by
  have entries : texts.map (fun item => ((sortKey item).1, Value.int (sortKey item).2)) =
      sorted.map SortItem.entry := by
    rw [← List.forall₂_eq_eq_eq, List.forall₂_map_left_iff, List.forall₂_map_right_iff]
    exact written.flip.imp fun _ _ writes => sortKey_of_writes writes
  have isItem := isItem_of_written SortItem.Writes.isItem written
  have read : sortKeys ordering = .ofEntries (sorted.map SortItem.entry) := by
    rw [sortKeys, items_of_listed listed isItem, entries]
  refine ⟨read, ?_⟩
  rw [read]
  exact Document.merges_ofEntries _

/-- A call with a comma in a literal, a key that has a direction among its words, and a key that
occurs again with another direction, behind a gap with a line feed. -/
theorem sortKeys_of_writes_again :
    let sorted : List SortItem := [
      ⟨{ chars := "a".toList }, none, by decide +kernel, by decide +kernel⟩,
      ⟨{ chars := "f(x, ',')".toList }, some .descending, by decide +kernel, by decide +kernel⟩,
      ⟨{ chars := "b desc".toList }, some .ascending, by decide +kernel, by decide +kernel⟩,
      ⟨{ chars := "a".toList }, some .descending, by decide +kernel, by decide +kernel⟩]
    let texts := ["a".toList, "f(x, ',') DESC".toList, "b desc\tasc".toList, "a \n dEsC".toList]
    let ordering := "a ,f(x, ',') DESC\n,, b desc\tasc,a \n dEsC".toList
    List.Forall₂ SortItem.Writes sorted texts ∧ Listed texts ordering ∧
      sortKeys ordering = [("a", .int (-1)), ("f(x, ',')", .int (-1)), ("b desc", .int 1)] := by
  intro sorted texts ordering
  have split : texts = ["a".toList, "f(x, ',')".toList ++ " ".toList ++ "DESC".toList,
      "b desc".toList ++ "\t".toList ++ "asc".toList,
      "a".toList ++ " \n ".toList ++ "dEsC".toList] := by
    decide +kernel
  have written : List.Forall₂ SortItem.Writes sorted texts := by
    rw [split]
    exact .cons (.bare rfl) (.cons (.directed rfl (by decide +kernel) (by decide +kernel))
      (.cons (.directed rfl (by decide +kernel) (by decide +kernel))
        (.cons (.directed rfl (by decide +kernel) (by decide +kernel)) .nil)))
  have places : ordering = ([] ++ "a".toList ++ " ".toList) ++ ',' ::
      (([] ++ "f(x, ',') DESC".toList ++ "\n".toList) ++ ',' :: ([] ++ ',' ::
        ((" ".toList ++ "b desc\tasc".toList ++ []) ++ ',' ::
          ([] ++ "a \n dEsC".toList ++ [])))) := by decide +kernel
  have listed : Listed texts ordering := by
    rw [places]
    exact .more (.item (by decide +kernel) (by decide +kernel))
      (.more (.item (by decide +kernel) (by decide +kernel)) (.more (.blank (by decide +kernel))
        (.more (.item (by decide +kernel) (by decide +kernel))
          (.last (.item (by decide +kernel) (by decide +kernel))))))
  obtain ⟨read, _⟩ := sortKeys_of_writes written listed
  have stored : Document.ofEntries (sorted.map SortItem.entry) =
      [("a", .int (-1)), ("f(x, ',')", .int (-1)), ("b desc", .int 1)] := by cbv
  exact ⟨written, listed, read.trans stored⟩

end SqlToMongo.Statement
