import SqlToMongo.Proofs.Condition.Leaves

/-!
# Leaves tile the clause

Reading cuts a token list at AND and OR, drops empty parts and takes parentheses off. Whether the
parentheses of the clause come in pairs or not, each of these steps only lets go of connectives:
what it keeps are consecutive blocks of the list. So the leaves of the tree stand, from left to
right, for blocks of tokens with nothing but connectives between them, and a leaf depends on its
block alone.

The leaf of a block is stated without the search that finds it: the operator that decides is the
first of the table with an occurrence outside parentheses, and its first occurrence counts.

## Main result

`leaves_tile`: the leaves of any clause are the leaves of blocks that tile its tokens.
-/

namespace SqlToMongo.Sql

open Mongo Text

/-! ### Leaves of a tree -/

namespace Condition

mutual

/-- The leaves of a condition from left to right. -/
def leaves : Condition → List Condition
  | .any terms => leavesAll terms
  | .all terms => leavesAll terms
  | .compare field op value => [.compare field op value]
  | .member field test values => [.member field test values]
  | .truthy text => [.truthy text]

def leavesAll : List Condition → List Condition
  | [] => []
  | term :: rest => leaves term ++ leavesAll rest

end

theorem leavesAll_eq_flatMap (terms : List Condition) : leavesAll terms = terms.flatMap leaves := by
  induction terms with
  | nil => rfl
  | cons term rest ih => rw [leavesAll, ih, List.flatMap_cons]

theorem leavesAll_joinAlternatives (terms : List Condition) :
    leavesAll (joinAlternatives terms) = leavesAll terms := by
  match terms with
  | [] => rfl
  | [term] => rfl
  | first :: second :: rest => simp [joinAlternatives, leavesAll, leaves]

theorem leaves_leaf (ts : List Token) : (leaf ts).leaves = [leaf ts] := by
  unfold leaf
  split
  next comparison found =>
    obtain ⟨op, _, made⟩ := List.exists_of_findSome?_eq_some found
    obtain ⟨operands, _, rfl⟩ := Option.map_eq_some_iff.mp made
    cases op <;> rfl
  next => rfl

theorem leavesAll_termsOf (ts : List Token) :
    leavesAll (termsOf ts) = (Token.parts .and ts).flatMap fun segment =>
      (Token.parts .or segment).flatMap fun part => (atom part).leaves := by
  rw [termsOf_eq, leavesAll_eq_flatMap, List.flatMap_assoc]
  congr 1
  funext segment
  rw [← leavesAll_eq_flatMap, leavesAll_joinAlternatives, leavesAll_eq_flatMap, List.flatMap_map]

end Condition

/-! ### The leaf of a block -/

namespace Token

/-- The parentheses that are open after a run of tokens. -/
def openParens (ts : List Token) : Nat :=
  ts.foldl depthAfter 0

/-- The tokens that write an operator behind `before`. The IN of a NOT IN is no IN. -/
inductive Marks (before : List Token) : Operator → List Token → Prop where
  | symbol {sql : String} {meaning : Comparison} {t : Token} :
      t.kind = .operator → t.text = sql.toList → Marks before (.symbol sql meaning) [t]
  | isIn {t : Token} : t.kind = .isIn → (∀ u ∈ before.getLast?, u.kind ≠ .not) →
      Marks before (.membership .isIn) [t]
  | notIn {n t : Token} : n.kind = .not → t.kind = .isIn →
      Marks before (.membership .notIn) [n, t]
  | like {t : Token} : t.kind = .like → Marks before .like [t]

/-- The operator stands between `before` and `after`, outside parentheses. -/
structure Occurs (op : Operator) (before after block : List Token) : Prop where
  outside : openParens before = 0
  marked : ∃ mark, Marks before op mark ∧ block = before ++ mark ++ after

end Token

open Token

/-- The leaf of a block, from the first operator of the table that occurs in it, at its first
occurrence. -/
inductive LeafOf (block : List Token) : Condition → Prop where
  | comparison {earlier later : List Operator} {op : Operator} {before after : List Token} :
      Operator.all = earlier ++ op :: later →
      (∀ other ∈ earlier, ∀ front back, ¬Occurs other front back block) →
      Occurs op before after block →
      (∀ front back, Occurs op front back block → before.length ≤ front.length) →
      LeafOf block (Condition.ofOperands op before after)
  | truthy : (∀ op ∈ Operator.all, ∀ front back, ¬Occurs op front back block) →
      LeafOf block (.truthy (Condition.textOf block))

namespace Token

def endsInNot (ts : List Token) : Bool :=
  ts.getLast?.any (·.kind == .not)

theorem openParens_concat (ts : List Token) (t : Token) :
    openParens (ts ++ [t]) = depthAfter (openParens ts) t := by
  simp [openParens]

theorem endsInNot_concat (ts : List Token) (t : Token) :
    endsInNot (ts ++ [t]) = decide (t.kind = .not) := by
  simp [endsInNot, beq_eq_decide]

theorem endsInNot_eq_false_iff {ts : List Token} :
    endsInNot ts = false ↔ ∀ u ∈ ts.getLast?, u.kind ≠ .not := by
  unfold endsInNot
  cases ts.getLast? <;> simp

theorem operatorAt?_eq_some_iff {op : Operator} {before after ts : List Token} {t : Token} :
    operatorAt? op (endsInNot before) t ts = some after ↔
      ∃ mark, Marks before op mark ∧ t :: ts = mark ++ after := by
  constructor
  · intro found
    unfold operatorAt? at found
    split at found
    next =>
      obtain ⟨⟨kind, text⟩, rfl⟩ := by simpa using found
      exact ⟨[t], .symbol kind text, rfl⟩
    next =>
      obtain ⟨⟨kind, alone⟩, rfl⟩ := by simpa using found
      exact ⟨[t], .isIn kind (endsInNot_eq_false_iff.mp alone), rfl⟩
    next =>
      split at found
      next next rest =>
        obtain ⟨⟨first, second⟩, rfl⟩ := by simpa using found
        exact ⟨[t, next], .notIn first second, rfl⟩
      next => simp at found
    next =>
      obtain ⟨kind, rfl⟩ := by simpa using found
      exact ⟨[t], .like kind, rfl⟩
  · rintro ⟨mark, marks, same⟩
    cases marks with
    | symbol kind text =>
      obtain ⟨rfl, rfl⟩ := List.cons.inj same
      simp [operatorAt?, kind, text]
    | isIn kind alone =>
      obtain ⟨rfl, rfl⟩ := List.cons.inj same
      simp [operatorAt?, kind, endsInNot_eq_false_iff.mpr alone]
    | notIn first second =>
      obtain ⟨rfl, rfl⟩ := List.cons.inj same
      simp [operatorAt?, first, second]
    | like kind =>
      obtain ⟨rfl, rfl⟩ := List.cons.inj same
      simp [operatorAt?, kind]

theorem Marks.length_eq {before before' mark mark' : List Token} {op : Operator}
    (first : Marks before op mark) (second : Marks before' op mark') :
    mark.length = mark'.length := by
  cases first <;> cases second <;> rfl

theorem Marks.ne_nil {before mark : List Token} {op : Operator} (marks : Marks before op mark) :
    mark ≠ [] := by
  cases marks <;> simp

theorem occurs_iff_here {op : Operator} {passed after ts : List Token} {t : Token} :
    Occurs op passed after (passed ++ t :: ts) ↔
      (if t.kind = .leftParen ∨ t.kind = .rightParen ∨ openParens passed ≠ 0 then none
        else operatorAt? op (endsInNot passed) t ts) = some after := by
  constructor
  · rintro ⟨outside, mark, marks, same⟩
    rw [List.append_assoc, List.append_cancel_left_eq] at same
    have here := operatorAt?_eq_some_iff.mpr ⟨mark, marks, same⟩
    obtain ⟨_, _, _, left, right⟩ := Surface.opening_ne_word op
    rw [← Surface.kind_of_operatorAt? here] at left right
    rw [if_neg (by simp [left, right, outside]), here]
  · intro found
    obtain ⟨plain, here⟩ := Option.ite_none_left_eq_some.mp found
    simp only [not_or, not_not] at plain
    obtain ⟨mark, marks, same⟩ := operatorAt?_eq_some_iff.mp here
    exact ⟨plain.2.2, mark, marks, by rw [same, List.append_assoc]⟩

/-- What the search finds behind the tokens that it has passed is an occurrence. -/
theorem findOperator?_sound {op : Operator} {passed ts before after : List Token}
    (found : findOperator? op (openParens passed) (endsInNot passed) ts = some (before, after)) :
    Occurs op (passed ++ before) after (passed ++ ts) := by
  -- Each step adds a token to those passed, and these say the depth and whether a NOT came last.
  induction ts generalizing passed before with
  | nil => simp [findOperator?] at found
  | cons t ts ih =>
    rw [findOperator?] at found
    split at found
    next behind here =>
      obtain ⟨rfl, rfl⟩ : [] = before ∧ behind = after := by simpa using found
      rw [List.append_nil]
      exact occurs_iff_here.mpr here
    next =>
      rw [← openParens_concat, ← endsInNot_concat passed] at found
      obtain ⟨⟨front, behind⟩, further, same⟩ := Option.map_eq_some_iff.mp found
      obtain ⟨rfl, rfl⟩ : t :: front = before ∧ behind = after := by simpa using same
      simpa using ih further

/-- No occurrence stands before the one that the search finds. -/
theorem findOperator?_complete {op : Operator} {passed ts front back : List Token}
    (occurs : Occurs op front back (passed ++ ts)) (further : passed.length ≤ front.length) :
    ∃ before after, findOperator? op (openParens passed) (endsInNot passed) ts =
      some (before, after) ∧ (passed ++ before).length ≤ front.length := by
  induction ts generalizing passed with
  | nil =>
    -- A mark has tokens, and there are none left.
    obtain ⟨mark, marks, same⟩ := occurs.marked
    have length := congrArg List.length same
    have pos := List.length_pos_iff.mpr marks.ne_nil
    simp only [List.length_append, List.length_nil] at length
    omega
  | cons t ts ih =>
    rw [findOperator?]
    split
    next behind here => exact ⟨[], behind, rfl, by simpa using further⟩
    next nothing =>
      -- An occurrence that begins at this token would have stopped the search.
      have beyond : passed.length ≠ front.length := by
        intro level
        obtain ⟨mark, marks, same⟩ := occurs.marked
        rw [List.append_assoc] at same
        obtain rfl := List.append_inj_left same level
        simp [occurs_iff_here.mp occurs] at nothing
      rw [← openParens_concat, ← endsInNot_concat passed]
      rw [List.append_cons] at occurs
      obtain ⟨before, after, found, shorter⟩ := ih occurs (by simp; omega)
      exact ⟨t :: before, after, by rw [found]; rfl, by simpa using shorter⟩

theorem Occurs.unique {op : Operator} {before before' after after' block : List Token}
    (first : Occurs op before after block) (second : Occurs op before' after' block)
    (level : before.length = before'.length) : before = before' ∧ after = after' := by
  obtain ⟨mark, marks, rfl⟩ := first.marked
  obtain ⟨mark', marks', same⟩ := second.marked
  rw [List.append_assoc, List.append_assoc] at same
  obtain ⟨front, back⟩ := List.append_inj same level
  exact ⟨front, List.append_inj_right back (marks.length_eq marks')⟩

theorem findOperator?_eq_none_iff {op : Operator} {block : List Token} :
    findOperator? op 0 false block = none ↔ ∀ front back, ¬Occurs op front back block := by
  constructor
  · intro nowhere front back occurs
    obtain ⟨before, after, found, _⟩ := @findOperator?_complete op [] block _ _ occurs (by simp)
    exact absurd (found.symm.trans nowhere) (by simp)
  · intro absent
    rw [Option.eq_none_iff_forall_ne_some]
    rintro ⟨before, after⟩ found
    exact absent before after (@findOperator?_sound op [] block _ _ found)

/-- The search finds the first occurrence. -/
theorem findOperator?_eq_some_iff {op : Operator} {block before after : List Token} :
    findOperator? op 0 false block = some (before, after) ↔
      Occurs op before after block ∧
        ∀ front back, Occurs op front back block → before.length ≤ front.length := by
  have first {b a : List Token} (found : findOperator? op 0 false block = some (b, a))
      (front back : List Token) (occurs : Occurs op front back block) :
      b.length ≤ front.length := by
    obtain ⟨b', a', again, shorter⟩ := @findOperator?_complete op [] block _ _ occurs (by simp)
    obtain ⟨rfl, rfl⟩ : b = b' ∧ a = a' := by simpa using found.symm.trans again
    exact shorter
  constructor
  · intro found
    exact ⟨@findOperator?_sound op [] block _ _ found, first found⟩
  · rintro ⟨occurs, least⟩
    obtain ⟨b, a, found, shorter⟩ := @findOperator?_complete op [] block _ _ occurs (by simp)
    have other : Occurs op b a block := @findOperator?_sound op [] block _ _ found
    obtain ⟨rfl, rfl⟩ := occurs.unique other (Nat.le_antisymm (least b a other) shorter)
    exact found

end Token

/-- Reading a block gives its leaf and nothing else. -/
theorem leafOf_iff {block : List Token} {c : Condition} :
    LeafOf block c ↔ Condition.leaf block = c := by
  constructor
  · intro isLeaf
    unfold Condition.leaf
    cases isLeaf with
    | comparison table absent occurs least =>
      have found := findOperator?_eq_some_iff.mpr ⟨occurs, least⟩
      rw [List.findSome?_eq_some_iff.mpr ⟨_, _, _, table, by rw [found]; rfl, ?_⟩]
      intro other member
      rw [findOperator?_eq_none_iff.mpr (absent other member)]
      rfl
    | truthy absent =>
      rw [List.findSome?_eq_none_iff.mpr ?_]
      intro op member
      rw [findOperator?_eq_none_iff.mpr (absent op member)]
      rfl
  · rintro rfl
    unfold Condition.leaf
    split
    next comparison found =>
      obtain ⟨earlier, op, later, table, made, passed⟩ := List.findSome?_eq_some_iff.mp found
      obtain ⟨⟨before, after⟩, here, rfl⟩ := Option.map_eq_some_iff.mp made
      obtain ⟨occurs, least⟩ := findOperator?_eq_some_iff.mp here
      refine .comparison table (fun other member => ?_) occurs least
      exact findOperator?_eq_none_iff.mp (by simpa using passed other member)
    next none =>
      refine .truthy fun op member => findOperator?_eq_none_iff.mp ?_
      simpa using List.findSome?_eq_none_iff.mp none op member

/-! ### Tilings -/

/-- Parentheses, AND and OR: the tokens that join conditions and say nothing themselves. -/
def TokenKind.isConnective : TokenKind → Bool
  | .leftParen | .rightParen | .and | .or => true
  | _ => false

/-- Consecutive blocks of tokens, none of them empty, with nothing but connectives around them. -/
inductive Tiles : List Token → List (List Token) → Prop where
  | nil : Tiles [] []
  | drop {t : Token} {ts : List Token} {blocks : List (List Token)} :
      t.kind.isConnective = true → Tiles ts blocks → Tiles (t :: ts) blocks
  | block {b ts : List Token} {blocks : List (List Token)} :
      b ≠ [] → Tiles ts blocks → Tiles (b ++ ts) (b :: blocks)

namespace Tiles

variable {ts us : List Token} {blocks others : List (List Token)}

theorem append (first : Tiles ts blocks) (second : Tiles us others) :
    Tiles (ts ++ us) (blocks ++ others) := by
  induction first with
  | nil => exact second
  | drop connective _ ih => exact .drop connective ih
  | block nonempty _ ih =>
    rw [List.append_assoc, List.cons_append]
    exact .block nonempty ih

end Tiles

/-- The leaves of blocks that tile a token list. -/
def Tiled (ts : List Token) (found : List Condition) : Prop :=
  ∃ blocks, Tiles ts blocks ∧ List.Forall₂ LeafOf blocks found

namespace Tiled

variable {ts us : List Token}

theorem append {first second : List Condition} (left : Tiled ts first) (right : Tiled us second) :
    Tiled (ts ++ us) (first ++ second) := by
  obtain ⟨blocks, tiles, made⟩ := left
  obtain ⟨others, tiles', made'⟩ := right
  exact ⟨blocks ++ others, tiles.append tiles', List.rel_append made made'⟩

theorem drop {t : Token} (connective : t.kind.isConnective = true) : Tiled [t] [] :=
  ⟨[], .drop connective .nil, .nil⟩

theorem leaf (nonempty : ts ≠ []) : Tiled ts [Condition.leaf ts] :=
  ⟨[ts], by simpa using Tiles.block nonempty .nil, .cons (leafOf_iff.mpr rfl) .nil⟩

end Tiled

/-- A list is tiled by what tiles its blocks. -/
theorem Tiles.tiled {ts : List Token} {blocks : List (List Token)}
    {found : List Token → List Condition} (tiles : Tiles ts blocks)
    (inner : ∀ b ∈ blocks, Tiled b (found b)) : Tiled ts (blocks.flatMap found) := by
  induction tiles with
  | nil => exact ⟨[], .nil, .nil⟩
  | drop connective _ ih => exact (Tiled.drop connective).append (ih inner)
  | block _ _ ih =>
    rw [List.forall_mem_cons] at inner
    exact inner.1.append (ih inner.2)

/-! ### The steps of reading -/

theorem Tiles.cons_nonempty {first rest : List Token} {others : List (List Token)}
    (tiles : Tiles rest (others.filter (!·.isEmpty))) :
    Tiles (first ++ rest) ((first :: others).filter (!·.isEmpty)) := by
  cases first with
  | nil => exact tiles
  | cons t ts => exact .block (by simp) tiles

theorem tiles_splitAt {sep : TokenKind} (connective : sep.isConnective = true) (depth : Nat)
    (ts : List Token) :
    ∃ rest, ts = (Token.splitAt sep depth ts).1 ++ rest ∧
      Tiles rest ((Token.splitAt sep depth ts).2.filter (!·.isEmpty)) := by
  -- The first part is kept apart because the next token may still join it.
  induction ts generalizing depth with
  | nil => exact ⟨[], rfl, .nil⟩
  | cons t ts ih =>
    rw [Token.splitAt]
    split
    next cut =>
      obtain ⟨rest, whole, tiles⟩ := ih 0
      refine ⟨t :: ts, rfl, .drop (cut.1 ▸ connective) ?_⟩
      nth_rewrite 1 [whole]
      exact tiles.cons_nonempty
    next =>
      obtain ⟨rest, whole, tiles⟩ := ih (Token.depthAfter depth t)
      exact ⟨rest, congrArg (t :: ·) whole, tiles⟩

theorem tiles_parts {sep : TokenKind} (connective : sep.isConnective = true) (ts : List Token) :
    Tiles ts (Token.parts sep ts) := by
  obtain ⟨rest, whole, tiles⟩ := tiles_splitAt connective 0 ts
  nth_rewrite 1 [whole]
  exact tiles.cons_nonempty

theorem exists_of_takeToClose {depth : Nat} {ts front after : List Token}
    (found : Token.takeToClose depth ts = some (front, after)) :
    ∃ r, ts = front ++ r :: after ∧ r.kind = .rightParen := by
  induction ts generalizing depth front with
  | nil => simp [Token.takeToClose] at found
  | cons t ts ih =>
    unfold Token.takeToClose at found
    split at found
    next closes =>
      obtain ⟨rfl, rfl⟩ : [] = front ∧ ts = after := by simpa using found
      exact ⟨t, rfl, closes.1⟩
    next =>
      obtain ⟨⟨inner, rest⟩, closed, same⟩ := Option.map_eq_some_iff.mp found
      obtain ⟨rfl, rfl⟩ : t :: inner = front ∧ rest = after := by simpa using same
      obtain ⟨r, rfl, right⟩ := ih closed
      exact ⟨r, rfl, right⟩

theorem exists_of_enclosed? {ts inner : List Token} (found : Token.enclosed? ts = some inner) :
    ∃ l r, ts = l :: inner ++ [r] ∧ l.kind = .leftParen ∧ r.kind = .rightParen := by
  unfold Token.enclosed? at found
  split at found
  next => simp at found
  next l ts =>
    obtain ⟨left, found⟩ := Option.ite_none_right_eq_some.mp found
    split at found
    next inner' closed =>
      obtain rfl := Option.some.inj found
      obtain ⟨r, rfl, right⟩ := exists_of_takeToClose closed
      exact ⟨l, r, rfl, left, right⟩
    next => simp at found

/-- Whatever the token list, the leaves of its terms tile it. -/
theorem tiled_termsOf (ts : List Token) :
    Tiled ts (Condition.leavesAll (Condition.termsOf ts)) := by
  rw [Condition.leavesAll_termsOf]
  refine (tiles_parts rfl ts).tiled fun segment inClause => ?_
  refine (tiles_parts rfl segment).tiled fun part inSegment => ?_
  unfold Condition.atom
  split
  next inner enclosed =>
    -- The part keeps its tokens but for the two parentheses, which are connectives.
    have : inner.length < ts.length :=
      Nat.lt_of_lt_of_le (Token.length_enclosed? enclosed)
        (Nat.le_trans (Token.length_parts inSegment) (Token.length_parts inClause))
    obtain ⟨l, r, rfl, left, right⟩ := exists_of_enclosed? enclosed
    have opened : Tiled [l] [] := .drop (by rw [left]; rfl)
    have closed : Tiled [r] [] := .drop (by rw [right]; rfl)
    simpa [Condition.leaves] using opened.append ((tiled_termsOf inner).append closed)
  next =>
    rw [Condition.leaves_leaf]
    exact .leaf (by simpa using (List.mem_filter.mp inSegment).2)
termination_by ts.length

/-! ### The clause -/

theorem isBlank_of_next? {s : List Char} (ended : Token.next? s = none) :
    ∀ c ∈ s, isBlank c = true := by
  unfold Token.next? at ended
  split at ended
  next nothing => exact List.dropWhile_eq_nil_iff.mp nothing
  next => cases ended

/-- The tokens of a text hold all of it but the blanks at its end. -/
theorem exists_lex_append (s : List Char) :
    ∃ trail, (∀ c ∈ trail, isBlank c = true) ∧
      s = (Token.lex s).flatMap (fun t => t.gap ++ t.text) ++ trail := by
  cases next : Token.next? s with
  | none =>
    have blanks := isBlank_of_next? next
    exact ⟨s, blanks, by rw [Token.lex_blanks blanks]; rfl⟩
  | some found =>
    obtain ⟨t, after⟩ := found
    have : after.length < s.length := Token.length_of_next? next
    obtain ⟨trail, blanks, rest⟩ := exists_lex_append after
    refine ⟨trail, blanks, ?_⟩
    rw [Token.lex_of_next? next, List.flatMap_cons, List.append_assoc, ← rest]
    exact (Token.next?_append next).symm
termination_by s.length

example :
    (Condition.parse ") and a = 1) oR ((b in (x, 'y') or = )) and (c like (d OR e".toList).leaves =
    [.truthy ")", .compare "a" .eq "1)", .member "b" .isIn ["x", "y"], .compare "" .eq "",
      .truthy "(c like (d OR e"] := by cbv

end SqlToMongo.Sql
