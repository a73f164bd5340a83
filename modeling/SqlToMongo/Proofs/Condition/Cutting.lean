import SqlToMongo.Sql.ConditionParser

/-!
# Cutting token lists

The reader cuts a token list at connectives outside parentheses and takes a pair of parentheses off
what they enclose. Both look only at the kinds of tokens. A run of kinds that is *balanced* is
passed over while a parenthesis is open, and one that is *solid* for a separator is passed over
outside parentheses too.
-/

namespace SqlToMongo.Sql

open Text

/-- Kinds of tokens with parentheses in pairs. -/
inductive Balanced : List TokenKind → Prop where
  | nil : Balanced []
  | plain {k : TokenKind} : k ≠ .leftParen → k ≠ .rightParen → Balanced [k]
  | nested {ks : List TokenKind} : Balanced ks → Balanced (.leftParen :: ks ++ [.rightParen])
  | append {ks ls : List TokenKind} : Balanced ks → Balanced ls → Balanced (ks ++ ls)

/-- Balanced kinds without the separator outside parentheses. -/
inductive Solid (sep : TokenKind) : List TokenKind → Prop where
  | nil : Solid sep []
  | plain {k : TokenKind} : k ≠ .leftParen → k ≠ .rightParen → k ≠ sep → Solid sep [k]
  | nested {ks : List TokenKind} : Balanced ks → Solid sep (.leftParen :: ks ++ [.rightParen])
  | append {ks ls : List TokenKind} : Solid sep ks → Solid sep ls → Solid sep (ks ++ ls)

theorem Solid.balanced {sep : TokenKind} {ks : List TokenKind} (solid : Solid sep ks) :
    Balanced ks := by
  induction solid with
  | nil => exact .nil
  | plain left right _ => exact .plain left right
  | nested inner => exact .nested inner
  | append _ _ first second => exact .append first second

theorem solid_of_plain {sep : TokenKind} {ks : List TokenKind}
    (plain : ∀ k ∈ ks, k ≠ .leftParen ∧ k ≠ .rightParen ∧ k ≠ sep) : Solid sep ks := by
  induction ks with
  | nil => exact .nil
  | cons k ks ih =>
    obtain ⟨left, right, different⟩ := plain k (by simp)
    exact .append (.plain left right different)
      (ih fun k member => plain k (List.mem_cons_of_mem _ member))

namespace Token

theorem depthAfter_plain {t : Token} (left : t.kind ≠ .leftParen) (right : t.kind ≠ .rightParen)
    (depth : Nat) : depthAfter depth t = depth := by
  unfold depthAfter
  split <;> simp_all

theorem depthAfter_left {t : Token} (left : t.kind = .leftParen) (depth : Nat) :
    depthAfter depth t = depth + 1 := by
  simp [depthAfter, left]

theorem depthAfter_right {t : Token} (right : t.kind = .rightParen) (depth : Nat) :
    depthAfter depth t = depth - 1 := by
  simp [depthAfter, right]

/-- A token that does not cut is put before what the rest gives. -/
theorem splitAt_cons {sep : TokenKind} {depth : Nat} {t : Token}
    (uncut : ¬(t.kind = sep ∧ depth = 0)) (ts : List Token) :
    splitAt sep depth (t :: ts) =
      (t :: (splitAt sep (depthAfter depth t) ts).1, (splitAt sep (depthAfter depth t) ts).2) := by
  rw [splitAt, if_neg uncut]

/-- The tokens of an enclosed run: the two parentheses and the run between them. -/
theorem exists_enclosed {ts : List Token} {ks : List TokenKind}
    (kinds : ts.map Token.kind = .leftParen :: ks ++ [.rightParen]) :
    ∃ l inner r, ts = l :: (inner ++ [r]) ∧ l.kind = .leftParen ∧ inner.map Token.kind = ks ∧
      r.kind = .rightParen := by
  obtain ⟨l, rest, rfl, left, kinds⟩ := List.map_eq_cons_iff.mp kinds
  obtain ⟨inner, last, rfl, inside, kinds⟩ := List.map_eq_append_iff.mp kinds
  obtain ⟨r, tail, rfl, right, nothing⟩ := List.map_eq_cons_iff.mp kinds
  obtain rfl := List.map_eq_nil_iff.mp nothing
  exact ⟨l, inner, r, rfl, left, inside, right⟩

/-- A balanced run inside parentheses is never cut. -/
theorem splitAt_balanced {ks : List TokenKind} (balanced : Balanced ks) (sep : TokenKind)
    (depth : Nat) (ts rest : List Token) (kinds : ts.map Token.kind = ks) :
    splitAt sep (depth + 1) (ts ++ rest) =
      (ts ++ (splitAt sep (depth + 1) rest).1, (splitAt sep (depth + 1) rest).2) := by
  -- By induction on how the run is balanced: a nested pair is passed one level further down.
  induction balanced generalizing depth ts rest with
  | nil =>
    obtain rfl := List.map_eq_nil_iff.mp kinds
    rfl
  | plain left right =>
    obtain ⟨t, tail, rfl, rfl, nothing⟩ := List.map_eq_cons_iff.mp kinds
    obtain rfl := List.map_eq_nil_iff.mp nothing
    rw [List.cons_append, splitAt_cons (by simp), depthAfter_plain left right]
    rfl
  | nested _ ih =>
    obtain ⟨l, inner, r, rfl, left, inside, right⟩ := exists_enclosed kinds
    rw [List.cons_append, splitAt_cons (by simp), depthAfter_left left, List.append_assoc,
      ih _ _ _ inside, List.singleton_append, splitAt_cons (by simp), depthAfter_right right]
    simp
  | append _ _ first second =>
    obtain ⟨front, back, rfl, frontKinds, backKinds⟩ := List.map_eq_append_iff.mp kinds
    rw [List.append_assoc, first _ _ _ frontKinds, second _ _ _ backKinds]
    simp

/-- A solid run is never cut. -/
theorem splitAt_solid {sep : TokenKind} (notParen : sep ≠ .leftParen) {ks : List TokenKind}
    (solid : Solid sep ks) (ts rest : List Token) (kinds : ts.map Token.kind = ks) :
    splitAt sep 0 (ts ++ rest) = (ts ++ (splitAt sep 0 rest).1, (splitAt sep 0 rest).2) := by
  induction solid generalizing ts rest with
  | nil =>
    obtain rfl := List.map_eq_nil_iff.mp kinds
    rfl
  | plain left right different =>
    obtain ⟨t, tail, rfl, rfl, nothing⟩ := List.map_eq_cons_iff.mp kinds
    obtain rfl := List.map_eq_nil_iff.mp nothing
    rw [List.cons_append, splitAt_cons (by simp [different]), depthAfter_plain left right]
    rfl
  | nested balanced =>
    obtain ⟨l, inner, r, rfl, left, inside, right⟩ := exists_enclosed kinds
    have opening : ¬(l.kind = sep ∧ 0 = 0) := fun h => notParen (h.1.symm.trans left)
    rw [List.cons_append, splitAt_cons opening, depthAfter_left left, List.append_assoc,
      splitAt_balanced balanced _ _ _ _ inside, List.singleton_append, splitAt_cons (by simp),
      depthAfter_right right]
    simp
  | append _ _ first second =>
    obtain ⟨front, back, rfl, frontKinds, backKinds⟩ := List.map_eq_append_iff.mp kinds
    rw [List.append_assoc, first _ _ frontKinds, second _ _ backKinds]
    simp

/-- A solid run is one part. -/
theorem parts_solid {sep : TokenKind} (notParen : sep ≠ .leftParen) {ts : List Token}
    (solid : Solid sep (ts.map Token.kind)) (nonempty : ts ≠ []) : parts sep ts = [ts] := by
  have whole := splitAt_solid notParen solid ts [] rfl
  rw [List.append_nil] at whole
  simp [parts, whole, splitAt, nonempty]

/-- A solid run before a separator is the first part. -/
theorem parts_joined {sep : TokenKind} (notParen : sep ≠ .leftParen) {ts rest : List Token}
    {t : Token} (solid : Solid sep (ts.map Token.kind)) (nonempty : ts ≠ []) (cuts : t.kind = sep) :
    parts sep (ts ++ t :: rest) = ts :: parts sep rest := by
  have front := splitAt_solid notParen solid ts (t :: rest) rfl
  simp [parts, front, splitAt, cuts, nonempty]

/-- A token that does not close is put before what the rest gives. -/
theorem takeToClose_cons {depth : Nat} {t : Token} (stays : ¬(t.kind = .rightParen ∧ depth ≤ 1))
    (ts : List Token) :
    takeToClose depth (t :: ts) =
      (takeToClose (depthAfter depth t) ts).map fun (front, after) => (t :: front, after) := by
  rw [takeToClose, if_neg stays]

/-- Inside parentheses a balanced run is passed over. -/
theorem takeToClose_balanced {ks : List TokenKind} (balanced : Balanced ks) (depth : Nat)
    (ts rest : List Token) (kinds : ts.map Token.kind = ks) :
    takeToClose (depth + 1) (ts ++ rest) =
      (takeToClose (depth + 1) rest).map fun (front, after) => (ts ++ front, after) := by
  induction balanced generalizing depth ts rest with
  | nil =>
    obtain rfl := List.map_eq_nil_iff.mp kinds
    simp
  | plain left right =>
    obtain ⟨t, tail, rfl, rfl, nothing⟩ := List.map_eq_cons_iff.mp kinds
    obtain rfl := List.map_eq_nil_iff.mp nothing
    rw [List.cons_append, takeToClose_cons (by simp [right]), depthAfter_plain left right]
    rfl
  | nested _ ih =>
    obtain ⟨l, inner, r, rfl, left, inside, right⟩ := exists_enclosed kinds
    rw [List.cons_append, takeToClose_cons (by simp [left]), depthAfter_left left,
      List.append_assoc, ih _ _ _ inside, List.singleton_append, takeToClose_cons (by simp),
      depthAfter_right right]
    simp [Option.map_map, Function.comp_def]
  | append _ _ first second =>
    obtain ⟨front, back, rfl, frontKinds, backKinds⟩ := List.map_eq_append_iff.mp kinds
    rw [List.append_assoc, first _ _ _ frontKinds, second _ _ _ backKinds]
    simp [Option.map_map, Function.comp_def]

/-- A balanced run in parentheses is what they enclose. -/
theorem enclosed?_nested {l r : Token} {inner : List Token} (left : l.kind = .leftParen)
    (right : r.kind = .rightParen) (balanced : Balanced (inner.map Token.kind)) :
    enclosed? (l :: inner ++ [r]) = some inner := by
  have closes : takeToClose 1 (inner ++ [r]) = some (inner, []) := by
    rw [takeToClose_balanced balanced 0 inner [r] rfl]
    simp [takeToClose, right]
  simp [enclosed?, left, closes]

/-- A token list that does not start with a parenthesis is not enclosed. -/
theorem enclosed?_eq_none {t : Token} (plain : t.kind ≠ .leftParen) (ts : List Token) :
    enclosed? (t :: ts) = none := by
  simp [enclosed?, plain]

end Token

end SqlToMongo.Sql
