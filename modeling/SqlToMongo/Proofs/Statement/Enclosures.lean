import SqlToMongo.Proofs.Statement.Items
import SqlToMongo.Proofs.Statement.Segments

/-!
# Lists in parentheses

A written list is cut into its items, and in parentheses it is found as the group that they enclose.
The other way round, whatever stands in a group is paired: reading its segments from the start, no
more parentheses have been closed than were opened at any place.

## Main result

`lists_and_groups_read_back`: lists and groups are read back, and what is read as a group is one.
-/

namespace SqlToMongo.Sql

open Text

/-- A literal that is closed is passed over. -/
theorem closes_takeQuoted {q : Char} (quote : isQuote q = true) {s : List Char}
    (more : (takeQuoted q s).2 ≠ []) (commas : Bool) (depth : Nat) (rest : List Char) :
    closes commas (some q) depth ((takeQuoted q s).1 ++ rest) = closes commas none depth rest := by
  obtain ⟨left, right, comma⟩ := isQuote_ne quote
  fun_induction takeQuoted q s with
  | case1 => exact absurd rfl more
  | case2 => exact absurd rfl more
  | case3 s body after taken ih =>
    -- A doubled quote closes the literal and opens it again.
    rw [taken] at ih
    simp [closes, openQuote, quote, left, right, comma, ih more]
  | case4 => simp [closes, openQuote]
  | case5 c d s different body after taken ih =>
    rw [taken] at ih
    simp [closes, openQuote, different, ih more]

/-- Where everything that is opened is closed later, no more has been closed than was open. -/
theorem count_le_of_closes {depth : Nat} {front tail : List Char}
    (closed : closes true none depth (front ++ tail) = true) :
    (segments front).count (.plain ')') ≤ depth + (segments front).count (.plain '(') := by
  fun_induction segments front generalizing depth with
  | case1 => simp
  | case2 q rest quote ih =>
    obtain ⟨left, right, comma⟩ := isQuote_ne quote
    simp only [List.count_cons, beq_iff_eq, reduceCtorEq, if_false, Nat.add_zero]
    by_cases more : (takeQuoted q rest).2 = []
    · simp [more, segments]
    · apply ih
      have passed := closes_takeQuoted quote more true depth ((takeQuoted q rest).2 ++ tail)
      rw [← List.append_assoc, takeQuoted_append] at passed
      simpa [closes, openQuote, quote, left, right, comma, passed] using closed
  | case3 c rest plain ih =>
    rw [Bool.not_eq_true] at plain
    by_cases left : c = '('
    · subst left
      have inner := @ih (depth + 1) (by simpa [closes] using closed)
      simp
      omega
    · by_cases right : c = ')'
      · subst right
        simp only [List.cons_append, closes, if_neg left, if_true, Bool.and_eq_true,
          bne_iff_ne] at closed
        have outer := ih closed.2
        simp
        omega
      · have same := @ih depth (by simpa [closes, openQuote, plain, left, right] using closed)
        simpa [List.count_cons, left, right] using same

/-- A written list is read back as its items, and in parentheses as their group, whatever follows.
Whatever is read as a group stands in parentheses, and is paired: up to any place in it, no more
parentheses outside literals have been closed than were opened. -/
theorem lists_and_groups_read_back :
    (∀ written s, Listed written s → (∀ item ∈ written, IsItem item) →
      items s = written ∧ ∀ rest, firstGroup? ('(' :: s ++ ')' :: rest) = some s) ∧
    ∀ s inner, firstGroup? ('(' :: s) = some inner →
      (∃ rest, s = inner ++ ')' :: rest) ∧ Paired true inner ∧
      ∀ front, front <+: inner →
        (segments front).count (.plain ')') ≤ (segments front).count (.plain '(') := by
  refine ⟨fun written s listed isItem => ?_, fun s inner found => ?_⟩
  · exact ⟨items_of_listed listed isItem, firstGroup?_of_paired (listed.paired isItem)⟩
  · obtain ⟨paired, within⟩ := firstGroup?_eq_some_iff.mp found
    refine ⟨within, paired, fun front starts => ?_⟩
    obtain ⟨tail, rfl⟩ := starts
    simpa using count_le_of_closes (paired_iff_closes.mp paired)

/-- Commas and parentheses in a call and in a literal, a blank item, and a group that goes on behind
a closing parenthesis in a literal. -/
theorem lists_and_groups_read_back_awkward :
    let written := ["f(a, ')')".toList, "'it''s, ('".toList]
    let s := " f(a, ')')\u00a0,\n,'it''s, ('".toList
    (Listed written s ∧ (∀ item ∈ written, IsItem item) ∧ items s = written ∧
      firstGroup? ('(' :: s ++ ')' :: ", (2)".toList) = some s) ∧
    firstGroup? "(a(')'b)c) d)".toList = some "a(')'b)c".toList ∧
      "a(')'b)".toList <+: "a(')'b)c".toList ∧
      (segments "a(')'b)".toList).count (.plain ')') ≤
        (segments "a(')'b)".toList).count (.plain '(') := by
  intro written s
  have split : s = (" ".toList ++ "f(a, ')')".toList ++ "\u00a0".toList) ++ ',' ::
      ("\n".toList ++ ',' :: ([] ++ "'it''s, ('".toList ++ [])) := by decide +kernel
  have listed : Listed written s := by
    rw [split]
    exact .more (.item (by decide +kernel) (by decide +kernel)) (.more (.blank (by decide +kernel))
      (.last (.item (by decide +kernel) (by decide +kernel))))
  have isItem : ∀ item ∈ written, IsItem item := by decide +kernel
  obtain ⟨cut, group⟩ := lists_and_groups_read_back.1 written s listed isItem
  have found : firstGroup? "(a(')'b)c) d)".toList = some "a(')'b)c".toList := by decide +kernel
  have starts : "a(')'b)".toList <+: "a(')'b)c".toList := by decide +kernel
  have counts := (lists_and_groups_read_back.2 "a(')'b)c) d)".toList _ found).2.2 _ starts
  exact ⟨⟨listed, isItem, cut, group _⟩, found, starts, counts⟩

end SqlToMongo.Sql
