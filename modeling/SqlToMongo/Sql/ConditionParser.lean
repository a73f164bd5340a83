import SqlToMongo.Sql.Condition
import SqlToMongo.Sql.Token

/-!
# Reading conditions

A clause is cut at the ANDs outside parentheses, and each segment at its ORs: `a OR b AND c` is the
two segments `a OR b` and `c`. A part in parentheses is read as a clause of its own. Any other part
is a leaf, and the first operator of the table that occurs in it outside parentheses decides which.
Reading never fails.
-/

namespace SqlToMongo.Sql

open Mongo Text

namespace Token

/-- The parentheses that are open after a token. A closing one that nothing opened is ignored. -/
def depthAfter (depth : Nat) (t : Token) : Nat :=
  match t.kind with
  | .leftParen => depth + 1
  | .rightParen => depth - 1
  | _ => depth

/-- Cuts a token list at the separators outside parentheses: the part before the first of them and
the parts after. -/
def splitAt (sep : TokenKind) (depth : Nat) : List Token → List Token × List (List Token)
  | [] => ([], [])
  | t :: ts =>
    if t.kind = sep ∧ depth = 0 then
      let (first, others) := splitAt sep 0 ts
      ([], first :: others)
    else
      let (first, others) := splitAt sep (depthAfter depth t) ts
      (t :: first, others)

/-- The parts of a token list between separators outside parentheses, without the empty ones. -/
def parts (sep : TokenKind) (ts : List Token) : List (List Token) :=
  let (first, others) := splitAt sep 0 ts
  (first :: others).filter (!·.isEmpty)

/-- The tokens up to the parenthesis that closes the last of `depth` open ones, and the tokens
after it. -/
def takeToClose (depth : Nat) : List Token → Option (List Token × List Token)
  | [] => none
  | t :: ts =>
    if t.kind = .rightParen ∧ depth ≤ 1 then some ([], ts)
    else (takeToClose (depthAfter depth t) ts).map fun (front, after) => (t :: front, after)

/-- The tokens between one pair of parentheses that encloses all of them. -/
def enclosed? : List Token → Option (List Token)
  | [] => none
  | t :: ts =>
    if t.kind = .leftParen then
      match takeToClose 1 ts with
      | some (inner, []) => some inner
      | _ => none
    else none

theorem length_splitAt (sep : TokenKind) (depth : Nat) (ts : List Token) :
    ∀ part ∈ (splitAt sep depth ts).1 :: (splitAt sep depth ts).2, part.length ≤ ts.length := by
  induction ts generalizing depth with
  | nil => simp [splitAt]
  | cons t ts ih =>
    unfold splitAt
    split
    · intro part member
      rcases List.mem_cons.mp member with rfl | member
      · simp
      · exact Nat.le_succ_of_le (ih 0 part member)
    · intro part member
      rcases List.mem_cons.mp member with rfl | member
      · simpa using ih (depthAfter depth t) _ (List.mem_cons_self ..)
      · exact Nat.le_succ_of_le (ih (depthAfter depth t) part (List.mem_cons_of_mem _ member))

theorem length_parts {sep : TokenKind} {ts part : List Token} (h : part ∈ parts sep ts) :
    part.length ≤ ts.length := by
  unfold parts at h
  exact length_splitAt sep 0 ts part (List.mem_filter.mp h).1

theorem length_takeToClose {depth : Nat} {ts front after : List Token}
    (h : takeToClose depth ts = some (front, after)) : front.length ≤ ts.length := by
  induction ts generalizing depth front with
  | nil => simp [takeToClose] at h
  | cons t ts ih =>
    unfold takeToClose at h
    split at h
    · simp only [Option.some.injEq, Prod.mk.injEq] at h
      simp [← h.1]
    · obtain ⟨⟨inner, rest⟩, found, same⟩ := Option.map_eq_some_iff.mp h
      simp only [Prod.mk.injEq] at same
      obtain ⟨rfl, rfl⟩ := same
      simpa using ih found

theorem length_enclosed? {ts inner : List Token} (h : enclosed? ts = some inner) :
    inner.length < ts.length := by
  unfold enclosed? at h
  split at h
  next => simp at h
  next t ts =>
    split at h
    next =>
      split at h
      next inner' found =>
        simp only [Option.some.injEq] at h
        subst h
        exact Nat.lt_succ_of_le (length_takeToClose found)
      next => simp at h
    next => simp at h

/-- The rest after an operator that starts with token `t`. An IN right after a NOT is part of a NOT
IN. -/
def operatorAt? (op : Operator) (afterNot : Bool) (t : Token) (ts : List Token) :
    Option (List Token) :=
  match op with
  | .symbol sql _ => if t.kind = .operator ∧ t.text = sql.toList then some ts else none
  | .membership .isIn => if t.kind = .isIn ∧ !afterNot then some ts else none
  | .membership .notIn =>
    match ts with
    | next :: rest => if t.kind = .not ∧ next.kind = .isIn then some rest else none
    | [] => none
  | .like => if t.kind = .like then some ts else none

/-- The tokens before and after the first occurrence of an operator outside parentheses. -/
def findOperator? (op : Operator) (depth : Nat) (afterNot : Bool) :
    List Token → Option (List Token × List Token)
  | [] => none
  | t :: ts =>
    -- A parenthesis is never an operator, and nothing between parentheses is.
    let here :=
      if t.kind = .leftParen ∨ t.kind = .rightParen ∨ depth ≠ 0 then none
      else operatorAt? op afterNot t ts
    match here with
    | some after => some ([], after)
    | none =>
      (findOperator? op (depthAfter depth t) (t.kind = .not) ts).map fun (front, after) =>
        (t :: front, after)

end Token

namespace Condition

/-- The text of a run of tokens, as a string. -/
def textOf (ts : List Token) : String :=
  String.ofList (Token.sourceText ts)

/-- The text of a run of tokens without a pair of quotes around it, as a string. -/
def valueOf (ts : List Token) : String :=
  String.ofList (unquote (Token.sourceText ts))

/-- A LIKE pattern as an anchored regular expression: `%` stands for any run of characters. -/
def likePattern (s : String) : String :=
  "^" ++ String.ofList (s.toList.flatMap fun c => if c = '%' then ['.', '*'] else [c]) ++ "$"

/-- The values of a membership test. What is not in parentheses is one value. -/
def listOf (ts : List Token) : List String :=
  match Token.enclosed? ts with
  | some inner => (Token.parts .comma inner).map valueOf
  | none => if (Token.sourceText ts).isEmpty then [] else [valueOf ts]

/-- The comparison that an operator makes of what stands before and after it. -/
def ofOperands (op : Operator) (before after : List Token) : Condition :=
  match op with
  | .symbol _ comparison => .compare (textOf before) comparison (valueOf after)
  | .membership test => .member (textOf before) test (listOf after)
  | .like => .compare (textOf before) .regex (likePattern (valueOf after))

/-- A leaf: the comparison of the first operator of the table that occurs, else the text. -/
def leaf (ts : List Token) : Condition :=
  match Operator.all.findSome? fun op =>
      (Token.findOperator? op 0 false ts).map fun (before, after) =>
        ofOperands op before after with
  | some comparison => comparison
  | none => .truthy (textOf ts)

/-- Two or more alternatives are one term. -/
def joinAlternatives : List Condition → List Condition
  | [] => []
  | [term] => [term]
  | terms => [.any terms]

/-- The terms of a clause: its segments, each with its alternatives. -/
def termsOf (ts : List Token) : List Condition :=
  (Token.parts .and ts).attach.flatMap fun ⟨segment, inClause⟩ =>
    joinAlternatives <| (Token.parts .or segment).attach.map fun ⟨part, inSegment⟩ =>
      match h : Token.enclosed? part with
      | some inner =>
        -- The parentheses are gone, so what is read next is shorter.
        have : inner.length < ts.length :=
          Nat.lt_of_lt_of_le (Token.length_enclosed? h)
            (Nat.le_trans (Token.length_parts inSegment) (Token.length_parts inClause))
        .all (termsOf inner)
      | none => leaf part
termination_by ts.length

/-- A part between connectives: a clause in parentheses or a leaf. -/
def atom (ts : List Token) : Condition :=
  match Token.enclosed? ts with
  | some inner => .all (termsOf inner)
  | none => leaf ts

theorem termsOf_eq (ts : List Token) :
    termsOf ts = (Token.parts .and ts).flatMap fun segment =>
      joinAlternatives ((Token.parts .or segment).map atom) := by
  rw [termsOf, List.flatMap_subtype, List.unattach_attach]
  intro segment inClause
  dsimp only
  rw [List.map_subtype, List.unattach_attach]
  intro part inSegment
  unfold atom
  split <;> simp_all

/-- The condition of a clause. -/
def parse (clause : List Char) : Condition :=
  .all (termsOf (Token.lex clause))

end Condition

end SqlToMongo.Sql
