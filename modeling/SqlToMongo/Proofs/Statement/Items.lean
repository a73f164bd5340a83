import SqlToMongo.Proofs.Condition.Leaves
import SqlToMongo.Proofs.Statement.Keywords
import SqlToMongo.Sql.ItemList
import SqlToMongo.Sql.Literal

/-!
# Lists of items as they are written

An item may hold anything as long as its literals are closed and its parentheses come in pairs; a
comma belongs to it when it stands in a literal or between parentheses. Three readers go over such
texts: one that cuts a list at its commas, one that looks for the end of a group in parentheses, and
one that drops the blanks around what is left. A text that is *paired* is passed over by the first
two as a whole.

## Main results

`paired_iff_closes`: whether a text is paired is found out by one scan.
`items_of_listed`: a written list is read back as its items.
`firstGroup?_eq_some_iff`: a group in parentheses is a paired text between the two.
-/

namespace SqlToMongo.Sql

open Text

/-! ### Blanks at the ends -/

theorem trim_blanks_append {before : List Char} (blanks : ∀ c ∈ before, isBlank c = true)
    (s : List Char) : trim (before ++ s) = trim s := by
  rw [trim, trimStart, List.dropWhile_append_of_pos blanks, trim, trimStart]

theorem trim_append_blanks {after : List Char} (blanks : ∀ c ∈ after, isBlank c = true)
    (s : List Char) : trim (s ++ after) = trim s := by
  have ends (s : List Char) : trimEnd (s ++ after) = trimEnd s := by
    have reversed : ∀ c ∈ after.reverse, isBlank c = true := fun c member =>
      blanks c (List.mem_reverse.mp member)
    rw [trimEnd, List.reverse_append, List.dropWhile_append_of_pos reversed, trimEnd]
  rw [trim, trimStart, List.dropWhile_append]
  split
  next nothing =>
    -- The text itself is blank, so the search for its start goes on into what follows.
    rw [List.isEmpty_iff] at nothing
    rw [trim, trimStart, nothing, List.dropWhile_eq_nil_iff.mpr blanks]
  next => rw [ends, trim, trimStart]

/-! ### Paired texts -/

theorem isQuote_ne {q : Char} (quote : isQuote q = true) : q ≠ '(' ∧ q ≠ ')' ∧ q ≠ ',' := by
  refine ⟨?_, ?_, ?_⟩ <;>
  · rintro rfl
    exact absurd quote (by decide)

/-- What is part of a word is no mark of a list. -/
theorem unsplit_of_isWordBreak {c : Char} (word : isWordBreak c = false) :
    isQuote c = false ∧ c ≠ ',' ∧ c ≠ '(' ∧ c ≠ ')' := by
  simp only [isWordBreak, Bool.or_eq_false_iff, beq_eq_false_iff_ne] at word
  exact ⟨word.2, word.1.2, word.1.1.1.2, word.1.1.2⟩

/-- Every literal is closed, and every parenthesis outside literals has its partner. The flag says
whether commas may stand outside literals and parentheses. A doubled quote ends one literal and
starts the next. -/
inductive Paired : Bool → List Char → Prop where
  | nil {commas : Bool} : Paired commas []
  | plain {commas : Bool} {c : Char} {s : List Char} :
      isQuote c = false → c ≠ '(' → c ≠ ')' → (c = ',' → commas = true) → Paired commas s →
      Paired commas (c :: s)
  | literal {commas : Bool} {q : Char} {content s : List Char} :
      isQuote q = true → q ∉ content → Paired commas s → Paired commas (q :: content ++ q :: s)
  | nested {commas : Bool} {inner s : List Char} :
      Paired true inner → Paired commas s → Paired commas ('(' :: inner ++ ')' :: s)

namespace Paired

variable {commas : Bool} {s t : List Char}

theorem append (first : Paired commas s) (second : Paired commas t) : Paired commas (s ++ t) := by
  induction first with
  | nil => exact second
  | plain quote left right comma _ ih => exact .plain quote left right comma (ih second)
  | literal quote closed _ ih => simpa using literal quote closed (ih second)
  | nested inner _ _ ih => simpa using nested inner (ih second)

theorem withCommas (paired : Paired commas s) : Paired true s := by
  induction paired with
  | nil => exact .nil
  | plain quote left right _ _ ih => exact .plain quote left right (fun _ => rfl) ih
  | literal quote closed _ ih => exact .literal quote closed ih
  | nested inner _ _ ih => exact .nested inner ih

theorem of_plain (plain : ∀ c ∈ s, isQuote c = false ∧ c ≠ ',' ∧ c ≠ '(' ∧ c ≠ ')') :
    Paired commas s := by
  induction s with
  | nil => exact .nil
  | cons c s ih =>
    obtain ⟨quote, comma, left, right⟩ := plain c (by simp)
    exact .plain quote left right (fun same => absurd same comma)
      (ih fun d member => plain d (List.mem_cons_of_mem _ member))

theorem of_blanks (blanks : ∀ c ∈ s, isBlank c = true) : Paired commas s := by
  apply of_plain
  intro c member
  have blank := blanks c member
  refine ⟨(isBlank_ne_special blank).2, ?_, ?_, ?_⟩ <;>
  · rintro rfl
    exact absurd blank (by decide)

end Paired

/-! ### Scanning for pairs -/

/-- Whether the literals and parentheses that are open come to their ends, with no comma outside
them unless the flag allows it. -/
def closes (commas : Bool) (quote : Option Char) (depth : Nat) : List Char → Bool
  | [] => quote.isNone && depth == 0
  | c :: rest =>
    match quote with
    | some _ => closes commas (openQuote quote c) depth rest
    | none =>
      if c = '(' then closes commas none (depth + 1) rest
      else if c = ')' then depth != 0 && closes commas none (depth - 1) rest
      else !(c == ',' && depth == 0 && !commas) && closes commas (openQuote none c) depth rest

/-- What is left of a paired text inside `depth` parentheses. -/
inductive Closing (commas : Bool) : Nat → List Char → Prop where
  | whole {s : List Char} : Paired commas s → Closing commas 0 s
  | inside {depth : Nat} {inner s : List Char} : Paired true inner → Closing commas depth s →
      Closing commas (depth + 1) (inner ++ ')' :: s)

namespace Closing

variable {commas : Bool} {depth : Nat} {s : List Char}

theorem plain {c : Char} (quote : isQuote c = false) (left : c ≠ '(') (right : c ≠ ')')
    (comma : c = ',' → depth = 0 → commas = true) (closing : Closing commas depth s) :
    Closing commas depth (c :: s) := by
  cases closing with
  | whole paired => exact .whole (.plain quote left right (fun same => comma same rfl) paired)
  | inside paired closing =>
    exact .inside (.plain quote left right (fun _ => rfl) paired) closing

theorem literal {q : Char} {content : List Char} (quote : isQuote q = true) (closed : q ∉ content)
    (closing : Closing commas depth s) : Closing commas depth (q :: content ++ q :: s) := by
  cases closing with
  | whole paired => exact .whole (.literal quote closed paired)
  | inside paired closing => simpa using inside (.literal quote closed paired) closing

theorem left (closing : Closing commas (depth + 1) s) : Closing commas depth ('(' :: s) := by
  cases closing with
  | inside inner closing =>
    cases closing with
    | whole paired => exact .whole (.nested inner paired)
    | inside paired closing => simpa using inside (.nested inner paired) closing

end Closing

theorem closes_literal {q : Char} {content : List Char} (closed : q ∉ content) (commas : Bool)
    (depth : Nat) (rest : List Char) :
    closes commas (some q) depth (content ++ q :: rest) = closes commas none depth rest := by
  induction content with
  | nil => simp [closes, openQuote]
  | cons c content ih =>
    rw [List.mem_cons, not_or] at closed
    simp [closes, openQuote, Ne.symm closed.1, ih closed.2]

theorem exists_literal_of_closes {commas : Bool} {q : Char} {depth : Nat} {s : List Char}
    (found : closes commas (some q) depth s = true) :
    ∃ content rest, s = content ++ q :: rest ∧ q ∉ content := by
  have quoted : q ∈ s := by
    induction s with
    | nil => simp [closes] at found
    | cons c s ih =>
      by_cases ends : c = q
      · simp [ends]
      · simp only [closes, openQuote, if_neg ends] at found
        exact List.mem_cons_of_mem _ (ih found)
  exact List.eq_append_cons_of_mem quoted

theorem closing_of_closes {commas : Bool} (depth : Nat) (s : List Char)
    (found : closes commas none depth s = true) : Closing commas depth s := by
  -- A literal is passed in one step, so the recursion is on the length of the text.
  match s with
  | [] =>
    obtain rfl : depth = 0 := by simpa [closes] using found
    exact .whole .nil
  | c :: s =>
    rw [closes] at found
    split at found
    next same =>
      subst same
      exact (closing_of_closes _ _ found).left
    next left =>
      split at found
      next same =>
        subst same
        simp only [Bool.and_eq_true, bne_iff_ne] at found
        obtain ⟨outer, rfl⟩ := Nat.exists_eq_succ_of_ne_zero found.1
        exact .inside .nil (closing_of_closes _ _ found.2)
      next right =>
        simp only [Bool.and_eq_true, Bool.not_eq_true', Bool.and_eq_false_iff] at found
        cases quote : isQuote c with
        | true =>
          simp only [openQuote, quote, if_true] at found
          -- The scan goes on behind the literal, with a shorter text.
          obtain ⟨content, rest, rfl, closed⟩ := exists_literal_of_closes found.2
          rw [closes_literal closed] at found
          exact (closing_of_closes _ _ found.2).literal quote closed
        | false =>
          simp only [openQuote, quote] at found
          refine (closing_of_closes _ _ found.2).plain quote left right fun comma outside => ?_
          simpa [comma, outside] using found.1
termination_by s.length

/-- A paired text is passed over, where commas are allowed if it has any. -/
theorem closes_append {commas inner : Bool} {s : List Char} (paired : Paired inner s) (depth : Nat)
    (allowed : inner = true → depth = 0 → commas = true) (rest : List Char) :
    closes commas none depth (s ++ rest) = closes commas none depth rest := by
  -- Inside a pair the depth is positive, so the flag of the whole text does not matter there.
  induction paired generalizing depth rest with
  | nil => rfl
  | @plain inner c s quote left right comma _ ih =>
    have kept : (c == ',' && depth == 0 && !commas) = false := by
      simp only [Bool.and_eq_false_iff, beq_eq_false_iff_ne, Bool.not_eq_false']
      by_cases same : c = ','
      · by_cases outside : depth = 0
        · exact .inr (allowed (comma same) outside)
        · exact .inl (.inr outside)
      · exact .inl (.inl same)
    rw [List.cons_append, closes, if_neg left, if_neg right, kept, Bool.not_false, Bool.true_and,
      openQuote, if_neg (by simp [quote]), ih depth allowed]
  | @literal inner q content s quote closed _ ih =>
    have passed := closes_literal closed commas depth (s ++ rest)
    rw [ih depth allowed] at passed
    obtain ⟨left, right, comma⟩ := isQuote_ne quote
    simp [closes, openQuote, quote, left, right, comma, passed]
  | nested _ _ first second =>
    rw [List.cons_append, List.cons_append, List.append_assoc, closes, if_pos rfl,
      first _ (by simp), List.cons_append, closes, if_neg (by decide), if_pos rfl,
      Nat.add_sub_cancel, second depth allowed]
    simp

theorem paired_iff_closes {commas : Bool} {s : List Char} :
    Paired commas s ↔ closes commas none 0 s = true := by
  constructor
  · intro paired
    have whole := closes_append paired 0 (fun same _ => same) []
    rw [List.append_nil] at whole
    simp [whole, closes]
  · intro found
    cases closing_of_closes 0 s found with
    | whole paired => exact paired

instance (commas : Bool) (s : List Char) : Decidable (Paired commas s) :=
  decidable_of_iff _ paired_iff_closes.symm

/-! ### Cutting at commas -/

theorem splitItems_cons {quote : Option Char} {depth : Nat} {c : Char}
    (uncut : ¬(quote = none ∧ depth = 0 ∧ c = ',')) (rest : List Char) :
    splitItems quote depth (c :: rest) =
      let tail := splitItems (openQuote quote c)
        (if quote = none then depthAfter depth c else depth) rest
      (c :: tail.1, tail.2) := by
  rw [splitItems, if_neg uncut]

theorem splitItems_content {q : Char} {content : List Char} (closed : q ∉ content) (depth : Nat)
    (rest : List Char) :
    splitItems (some q) depth (content ++ q :: rest) =
      (content ++ q :: (splitItems none depth rest).1, (splitItems none depth rest).2) := by
  induction content with
  | nil => simp [splitItems, openQuote]
  | cons c content ih =>
    rw [List.mem_cons, not_or] at closed
    rw [List.cons_append, splitItems_cons (by simp)]
    simp [openQuote, Ne.symm closed.1, ih closed.2]

/-- A paired text is never cut, unless it has commas and no parenthesis is open. -/
theorem splitItems_append {commas : Bool} {s : List Char} (paired : Paired commas s) (depth : Nat)
    (inside : commas = true → depth ≠ 0) (rest : List Char) :
    splitItems none depth (s ++ rest) =
      (s ++ (splitItems none depth rest).1, (splitItems none depth rest).2) := by
  -- The rest is arbitrary, so a pair is read as its inside before its closing parenthesis.
  induction paired generalizing depth rest with
  | nil => rfl
  | @plain commas c s quote left right comma _ ih =>
    have uncut : ¬((none : Option Char) = none ∧ depth = 0 ∧ c = ',') :=
      fun ⟨_, outside, same⟩ => inside (comma same) outside
    rw [List.cons_append, splitItems_cons uncut]
    simp [openQuote, depthAfter, quote, left, right, ih depth inside]
  | @literal commas q content s quote closed _ ih =>
    obtain ⟨left, right, comma⟩ := isQuote_ne quote
    have passed := splitItems_content closed depth (s ++ rest)
    rw [ih depth inside] at passed
    rw [List.cons_append, List.cons_append, splitItems_cons (by simp [comma])]
    simp [openQuote, depthAfter, quote, left, right, passed]
  | @nested commas inner s _ _ first second =>
    -- Inside the pair one more parenthesis is open, and behind it as many as before.
    have closing : splitItems none (depth + 1) (')' :: (s ++ rest)) =
        (')' :: s ++ (splitItems none depth rest).1, (splitItems none depth rest).2) := by
      rw [splitItems_cons (by simp)]
      simp [openQuote, depthAfter, isQuote, second depth inside rest]
    have opened := first (depth + 1) (by simp) (')' :: (s ++ rest))
    rw [closing] at opened
    rw [List.cons_append, List.cons_append, splitItems_cons (by simp)]
    simp [openQuote, depthAfter, isQuote, opened]

/-! ### Groups in parentheses -/

theorem takeToClose_cons {quote : Option Char} {depth : Int} {c : Char}
    (stays : ¬(quote = none ∧ c = ')' ∧ depth = 1)) (rest : List Char) :
    takeToClose quote depth (c :: rest) =
      (takeToClose (openQuote quote c)
        (if quote ≠ none then depth
        else if c = '(' then depth + 1
        else if c = ')' then depth - 1
        else depth) rest).map (c :: ·) := by
  rw [takeToClose, if_neg stays]

/-- Both searches count the same parentheses; the one for the end of a group has one more open. -/
theorem exists_depth {quote : Option Char} {depth : Nat} {c : Char}
    (stays : ¬(quote = none ∧ c = ')' ∧ depth = 0)) :
    ∃ inner : Nat,
      (∀ rest, takeToClose quote (depth + 1) (c :: rest) =
        (takeToClose (openQuote quote c) (inner + 1) rest).map (c :: ·)) ∧
      ∀ rest, closes true quote depth (c :: rest) = closes true (openQuote quote c) inner rest := by
  have goesOn : ¬(quote = none ∧ c = ')' ∧ (depth : Int) + 1 = 1) := by
    rintro ⟨outside, right, level⟩
    exact stays ⟨outside, right, by omega⟩
  cases quote with
  | some q => exact ⟨depth, fun rest => by rw [takeToClose_cons goesOn]; simp, fun rest => rfl⟩
  | none =>
    by_cases left : c = '('
    · subst left
      exact ⟨depth + 1, fun rest => by rw [takeToClose_cons goesOn]; simp [openQuote, isQuote],
        fun rest => by simp [closes, openQuote, isQuote]⟩
    · by_cases right : c = ')'
      · subst right
        obtain ⟨outer, rfl⟩ : ∃ outer, depth = outer + 1 :=
          Nat.exists_eq_succ_of_ne_zero fun zero => stays ⟨rfl, rfl, zero⟩
        exact ⟨outer, fun rest => by rw [takeToClose_cons goesOn]; simp [openQuote, isQuote],
          fun rest => by simp [closes, openQuote, isQuote]⟩
      · exact ⟨depth, fun rest => by rw [takeToClose_cons goesOn]; simp [left, right],
          fun rest => by simp [closes, left, right]⟩

/-- The search for the end of a group stops at the first closing parenthesis before which everything
that was opened is closed. -/
theorem takeToClose_eq_some_iff {quote : Option Char} {depth : Nat} {s inner : List Char} :
    takeToClose quote (depth + 1) s = some inner ↔
      closes true quote depth inner = true ∧ ∃ rest, s = inner ++ ')' :: rest := by
  induction s generalizing quote depth inner with
  | nil => simp [takeToClose]
  | cons c s ih =>
    by_cases stops : quote = none ∧ c = ')' ∧ depth = 0
    · obtain ⟨rfl, rfl, rfl⟩ := stops
      have found : takeToClose none ((0 : Nat) + 1) (')' :: s) = some [] := by simp [takeToClose]
      rw [found]
      constructor
      · rintro ⟨⟩
        exact ⟨rfl, s, rfl⟩
      · rintro ⟨closed, rest, same⟩
        cases inner with
        | nil => rfl
        | cons d inner =>
          obtain rfl := (List.cons.inj same).1
          simp [closes] at closed
    · obtain ⟨level, search, scan⟩ := exists_depth stops
      rw [search]
      cases inner with
      | nil =>
        -- An empty group needs the very parenthesis that the search does not stop at.
        constructor
        · simp
        · rintro ⟨closed, rest, same⟩
          simp only [closes, Bool.and_eq_true, Option.isNone_iff_eq_none, beq_iff_eq] at closed
          exact absurd ⟨closed.1, (List.cons.inj same).1, closed.2⟩ stops
      | cons d inner =>
        constructor
        · intro found
          obtain ⟨tail, behind, same⟩ := Option.map_eq_some_iff.mp found
          obtain ⟨rfl, rfl⟩ := List.cons.inj same
          obtain ⟨closed, rest, rfl⟩ := ih.mp behind
          exact ⟨by rwa [scan], rest, rfl⟩
        · rintro ⟨closed, rest, same⟩
          obtain ⟨rfl, rfl⟩ := List.cons.inj same
          rw [scan] at closed
          rw [ih.mpr ⟨closed, rest, rfl⟩]
          rfl

/-- The group that a parenthesis opens is the paired text up to the parenthesis that closes it. -/
theorem firstGroup?_eq_some_iff {s inner : List Char} :
    firstGroup? ('(' :: s) = some inner ↔
      Paired true inner ∧ ∃ rest, s = inner ++ ')' :: rest := by
  have opened : takeToClose none 0 ('(' :: s) =
      (takeToClose none ((0 : Nat) + 1) s).map ('(' :: ·) := by
    rw [takeToClose_cons (by simp)]
    simp [openQuote, isQuote]
  have dropped : dropByte ∘ ('(' :: ·) = id := by
    funext group
    simp [dropByte, Char.utf8Size]
  rw [firstGroup?, opened, Option.map_map, dropped, Option.map_id, id, takeToClose_eq_some_iff,
    paired_iff_closes]

/-- A paired text in parentheses is the group that they enclose, whatever follows it. -/
theorem firstGroup?_of_paired {commas : Bool} {s : List Char} (paired : Paired commas s)
    (rest : List Char) : firstGroup? ('(' :: s ++ ')' :: rest) = some s :=
  firstGroup?_eq_some_iff.mpr ⟨paired.withCommas, rest, rfl⟩
/-! ### Blanks around a list -/

theorem splitItems_uncut {s : List Char} (uncut : ∀ c ∈ s, c ≠ ',') (quote : Option Char)
    (depth : Nat) : splitItems quote depth s = (s, []) := by
  induction s generalizing quote depth with
  | nil => rfl
  | cons c s ih =>
    rw [List.forall_mem_cons] at uncut
    rw [splitItems_cons (by simp [uncut.1]), ih uncut.2]

/-- What has no comma is added to the last part of what stands before it. -/
theorem splitItems_append_uncut {after : List Char} (uncut : ∀ c ∈ after, c ≠ ',')
    (quote : Option Char) (depth : Nat) (s : List Char) :
    let Extends (long short : List Char) := long = short ∨ long = short ++ after
    Extends (splitItems quote depth (s ++ after)).1 (splitItems quote depth s).1 ∧
      List.Forall₂ Extends (splitItems quote depth (s ++ after)).2
        (splitItems quote depth s).2 := by
  intro Extends
  induction s generalizing quote depth with
  | nil =>
    rw [List.nil_append, splitItems_uncut uncut]
    exact ⟨.inr rfl, .nil⟩
  -- Wherever a comma cuts, what has none is still at the end of the last part.
  | cons c s ih =>
    by_cases cut : quote = none ∧ depth = 0 ∧ c = ','
    · obtain ⟨first, others⟩ := ih none 0
      simp only [List.cons_append, splitItems, if_pos cut]
      exact ⟨.inl rfl, .cons first others⟩
    · rw [List.cons_append, splitItems_cons cut, splitItems_cons cut]
      obtain ⟨first, others⟩ := ih (openQuote quote c)
        (if quote = none then depthAfter depth c else depth)
      refine ⟨?_, others⟩
      rcases first with same | longer
      · exact .inl (congrArg (c :: ·) same)
      · exact .inr (congrArg (c :: ·) longer)

theorem ne_comma_of_isBlank {c : Char} (blank : isBlank c = true) : c ≠ ',' := by
  rintro rfl
  exact absurd blank (by decide)

/-- Blanks around a list of items change nothing. -/
theorem items_padded (s : List Char) {before after : List Char}
    (front : ∀ c ∈ before, isBlank c = true) (back : ∀ c ∈ after, isBlank c = true) :
    items (before ++ s ++ after) = items s := by
  have trimmed {long short : List Char} (extended : long = short ∨ long = short ++ after) :
      trim long = trim short := by
    rcases extended with rfl | rfl
    · rfl
    · exact trim_append_blanks back short
  obtain ⟨first, others⟩ :=
    splitItems_append_uncut (fun c member => ne_comma_of_isBlank (back c member)) none 0 s
  have rest : (splitItems none 0 (s ++ after)).2.map trim = (splitItems none 0 s).2.map trim := by
    rw [← List.forall₂_eq_eq_eq, List.forall₂_map_left_iff, List.forall₂_map_right_iff]
    exact others.imp fun _ _ extended => trimmed extended
  have lead : Paired false before := .of_blanks front
  rw [List.append_assoc, items, splitItems_append lead 0 (by simp)]
  simp only [List.map_cons, trim_blanks_append front, trimmed first, rest, items]

/-! ### Written lists -/

/-- An item of a list: not empty, without blanks at its ends, paired, and without a comma outside
literals and parentheses. -/
structure IsItem (item : List Char) : Prop where
  nonempty : item ≠ []
  trimmed : trim item = item
  paired : Paired false item

instance (item : List Char) : Decidable (IsItem item) :=
  decidable_of_iff (item ≠ [] ∧ trim item = item ∧ Paired false item)
    ⟨fun h => ⟨h.1, h.2.1, h.2.2⟩, fun h => ⟨h.1, h.2, h.3⟩⟩

/-- An item goes on with whatever holds no mark of a list and ends visibly. -/
theorem IsItem.append {item ending : List Char} (isItem : IsItem item)
    (unsplit : ∀ c ∈ ending, isQuote c = false ∧ c ≠ ',' ∧ c ≠ '(' ∧ c ≠ ')')
    (last : ∀ c ∈ ending.getLast?, isBlank c = false) : IsItem (item ++ ending) := by
  have ends := isBlank_ends_of_trim isItem.trimmed
  refine ⟨by simp [isItem.nonempty], trim_eq_self ?_ ?_, isItem.paired.append (.of_plain unsplit)⟩
  · rw [List.head?_append_of_ne_nil _ isItem.nonempty]
    exact ends.1
  · rcases List.eq_nil_or_concat ending with rfl | ⟨front, c, rfl⟩
    · simpa using ends.2
    · rw [List.getLast?_append_of_ne_nil _ (by simp)]
      exact last

structure ItemText where
  chars : List Char
  isItem : IsItem chars := by decide +kernel

def ItemText.value (v : ItemText) : Mongo.Value :=
  (Literal.classify v.chars).toValue

/-- A name in a list: not empty, without blanks at its ends, and without characters that mean
something for lists. -/
structure NameText where
  chars : List Char
  nonempty : chars ≠ [] := by decide +kernel
  trimmed : trim chars = chars := by decide +kernel
  plain : ∀ c ∈ chars, isQuote c = false ∧ c ≠ ',' ∧ c ≠ '(' ∧ c ≠ ')' := by decide +kernel

theorem NameText.isItem (n : NameText) : IsItem n.chars :=
  ⟨n.nonempty, n.trimmed, .of_plain n.plain⟩

/-- What may stand between two commas: an item with blanks around it, or blanks alone. -/
inductive Part : Option (List Char) → List Char → Prop where
  | blank {gap : List Char} : Surface.Blanks gap → Part none gap
  | item {item before after : List Char} : Surface.Blanks before → Surface.Blanks after →
      Part (some item) (before ++ item ++ after)

/-- The texts of a list of items: parts with commas between them. -/
inductive Listed : List (List Char) → List Char → Prop where
  | last {item : Option (List Char)} {text : List Char} : Part item text →
      Listed item.toList text
  | more {item : Option (List Char)} {items : List (List Char)} {text rest : List Char} :
      Part item text → Listed items rest → Listed (item.toList ++ items) (text ++ ',' :: rest)

theorem Part.paired {item : Option (List Char)} {text : List Char} (part : Part item text)
    (isItem : ∀ i ∈ item.toList, IsItem i) : Paired false text := by
  cases part with
  | blank blanks => exact .of_blanks (List.all_eq_true.mp blanks)
  | item before after =>
    have front : Paired false _ := .of_blanks (List.all_eq_true.mp before)
    have back : Paired false _ := .of_blanks (List.all_eq_true.mp after)
    exact (front.append (isItem _ (by simp)).paired).append back

theorem Part.trimmed {item : Option (List Char)} {text : List Char} (part : Part item text)
    (isItem : ∀ i ∈ item.toList, IsItem i) :
    [trim text].filter (!·.isEmpty) = item.toList := by
  cases part with
  | blank blanks =>
    have nothing := trim_blanks_append (List.all_eq_true.mp blanks) []
    rw [List.append_nil] at nothing
    rw [nothing]
    rfl
  | @item item before after front back =>
    have isItem := isItem item (by simp)
    rw [List.append_assoc, trim_blanks_append (List.all_eq_true.mp front),
      trim_append_blanks (List.all_eq_true.mp back), isItem.trimmed]
    simp [isItem.nonempty]

theorem Part.mem {item : Option (List Char)} {text : List Char} (part : Part item text) {c : Char}
    (member : c ∈ text) : isBlank c = true ∨ ∃ i ∈ item.toList, c ∈ i := by
  cases part with
  | blank blanks => exact .inl (List.all_eq_true.mp blanks c member)
  | item before after =>
    rw [List.append_assoc, List.mem_append, List.mem_append] at member
    rcases member with member | member | member
    · exact .inl (List.all_eq_true.mp before c member)
    · exact .inr ⟨_, by simp, member⟩
    · exact .inl (List.all_eq_true.mp after c member)

namespace Listed

variable {written : List (List Char)} {s : List Char}

theorem paired (listed : Listed written s) (isItem : ∀ item ∈ written, IsItem item) :
    Paired true s := by
  induction listed with
  | last part => exact (part.paired isItem).withCommas
  | more part _ ih =>
    rw [List.forall_mem_append] at isItem
    have comma : Paired true (',' :: _) :=
      .plain (by decide) (by decide) (by decide) (fun _ => rfl) (ih isItem.2)
    exact (part.paired isItem.1).withCommas.append comma

theorem mem (listed : Listed written s) {c : Char} (member : c ∈ s) :
    isBlank c = true ∨ c = ',' ∨ ∃ item ∈ written, c ∈ item := by
  induction listed with
  | last part => exact (part.mem member).imp_right .inr
  | more part _ ih =>
    rw [List.mem_append, List.mem_cons] at member
    rcases member with member | comma | member
    · rcases part.mem member with blank | ⟨item, inside, found⟩
      · exact .inl blank
      · exact .inr (.inr ⟨item, List.mem_append_left _ inside, found⟩)
    · exact .inr (.inl comma)
    · rcases ih member with blank | comma | ⟨item, inside, found⟩
      · exact .inl blank
      · exact .inr (.inl comma)
      · exact .inr (.inr ⟨item, List.mem_append_right _ inside, found⟩)

theorem mem_of_item (listed : Listed written s) {item : List Char} (isItem : item ∈ written)
    {c : Char} (member : c ∈ item) : c ∈ s := by
  have inside {part : Option (List Char)} {text : List Char} (isPart : Part part text)
      (isItem : item ∈ part.toList) : c ∈ text := by
    cases isPart with
    | blank => simp at isItem
    | item =>
      obtain rfl := List.mem_singleton.mp isItem
      simp [member]
  induction listed with
  | last part => exact inside part isItem
  | more part _ ih =>
    rcases List.mem_append.mp isItem with isItem | isItem
    · exact List.mem_append_left _ (inside part isItem)
    · exact List.mem_append_right _ (List.mem_cons_of_mem _ (ih isItem))

end Listed

theorem isItem_of_written {α : Type} {Writes : α → List Char → Prop}
    (isItem : ∀ {a text}, Writes a text → IsItem text) {parts : List α} {texts : List (List Char)}
    (written : List.Forall₂ Writes parts texts) : ∀ text ∈ texts, IsItem text := by
  induction written with
  | nil => simp
  | cons first _ ih => exact List.forall_mem_cons.mpr ⟨isItem first, ih⟩

/-- A written list is read back as its items. -/
theorem items_of_listed {written : List (List Char)} {s : List Char} (listed : Listed written s)
    (isItem : ∀ item ∈ written, IsItem item) : items s = written := by
  induction listed with
  | last part =>
    have whole := splitItems_append (part.paired isItem) 0 (by simp) []
    rw [List.append_nil] at whole
    rw [items, whole, ← part.trimmed isItem]
    simp [splitItems]
  | @more _ _ _ rest part _ ih =>
    rw [List.forall_mem_append] at isItem
    have cut := splitItems_append (part.paired isItem.1) 0 (by simp) (',' :: rest)
    have comma : splitItems none 0 (',' :: rest) =
        ([], (splitItems none 0 rest).1 :: (splitItems none 0 rest).2) := by simp [splitItems]
    rw [comma, List.append_nil] at cut
    rw [items, cut, ← part.trimmed isItem.1, ← ih isItem.2, items, ← List.filter_append]
    rfl

end SqlToMongo.Sql
