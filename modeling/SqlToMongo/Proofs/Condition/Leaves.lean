import SqlToMongo.Proofs.Condition.Cutting
import SqlToMongo.Proofs.Condition.Lexing

/-!
# Reading the leaves of a condition

A word alone and a test of a field are leaves. In a test exactly one operator of the table occurs
outside parentheses, so the order of the table does not matter for it; the IN of a NOT IN is none
of its own because it follows a NOT.
-/

namespace SqlToMongo.Sql

open Mongo Text

/-! ### Texts of single tokens -/

theorem trim_eq_self {s : List Char} (first : ∀ c ∈ s.head?, isBlank c = false)
    (last : ∀ c ∈ s.getLast?, isBlank c = false) : trim s = s := by
  have start : trimStart s = s := by
    cases s with
    | nil => rfl
    | cons c s => simp [trimStart, first c (by simp)]
  have stop : s.reverse.dropWhile isBlank = s.reverse := by
    rw [← List.head?_reverse] at last
    cases reversed : s.reverse with
    | nil => rfl
    | cons c rest => simp [last c (by simp [reversed])]
  rw [trim, start, trimEnd, stop, List.reverse_reverse]

theorem trim_quoted {q : Char} (quote : isQuote q = true) (content : List Char) :
    trim (q :: content ++ [q]) = q :: content ++ [q] := by
  have visible := isBlank_of_isQuote quote
  apply trim_eq_self
  · simpa using visible
  · simpa [List.getLast?_cons] using visible

theorem quoted?_quoted {q : Char} (quote : isQuote q = true) (content : List Char) :
    quoted? (q :: content ++ [q]) = some content := by
  simp [quoted?, quote]

namespace Surface

theorem Word.isBlank_chars (w : Word) : ∀ c ∈ w.chars, isBlank c = false := by
  intro c member
  have unbroken := List.all_eq_true.mp w.unbroken c member
  simp only [isWordChar, Bool.and_eq_true, Bool.not_eq_true'] at unbroken
  exact unbroken.1

theorem Word.trim_chars (w : Word) : trim w.chars = w.chars :=
  trim_eq_self (fun c first => w.isBlank_chars c (List.mem_of_head? first))
    (fun c last => w.isBlank_chars c (List.mem_of_getLast? last))

theorem Word.unquote_chars (w : Word) : unquote w.chars = w.chars := by
  obtain ⟨c, rest, shape⟩ := List.exists_cons_of_ne_nil w.nonempty
  have word := w.isWordBreak_chars c (by simp [shape])
  simp only [isWordBreak, Bool.or_eq_false_iff] at word
  simp [shape, unquote, quoted?, word.2]

/-- A field is the text of its token. -/
theorem textOf_reads {t : Token} {w : Word} (reads : Reads t (.word w)) :
    Condition.textOf [t] = w.text := by
  obtain ⟨_, spelled⟩ := reads
  generalize same : t.text = chars at spelled
  cases spelled
  simp [Condition.textOf, Token.sourceText, Token.source, same, w.trim_chars, Word.text]

/-- A value is the text of its token without marks. -/
theorem valueOf_reads {t : Token} {v : Operand} (reads : Reads t v.lexeme) :
    Condition.valueOf [t] = v.value := by
  obtain ⟨_, spelled⟩ := reads
  generalize same : t.text = chars at spelled
  cases v with
  | word w =>
    cases spelled
    simp [Condition.valueOf, Token.sourceText, Token.source, same, w.trim_chars, w.unquote_chars,
      Operand.value, Word.text]
  | quoted q =>
    cases spelled
    have trimmed := trim_quoted q.isMark q.content
    have unquoted := quoted?_quoted q.isMark q.content
    rw [List.cons_append] at trimmed unquoted same
    simp [Condition.valueOf, Token.sourceText, Token.source, same, trimmed, unquote, unquoted,
      Operand.value]

/-! ### Leaves -/

/-- The kind of token an operator starts with. -/
def opening : Operator → TokenKind
  | .symbol _ _ => .operator
  | .membership .isIn => .isIn
  | .membership .notIn => .not
  | .like => .like

theorem opening_ne_word (op : Operator) :
    opening op ≠ .word ∧ opening op ≠ .string ∧ opening op ≠ .comma ∧ opening op ≠ .leftParen ∧
      opening op ≠ .rightParen := by
  unfold opening
  split <;> decide

theorem kind_of_operatorAt? {op : Operator} {afterNot : Bool} {t : Token} {ts after : List Token}
    (found : Token.operatorAt? op afterNot t ts = some after) : t.kind = opening op := by
  unfold Token.operatorAt? at found
  split at found
  next => exact (Option.ite_none_right_eq_some.mp found).1.1
  next => exact (Option.ite_none_right_eq_some.mp found).1.1
  next =>
    split at found
    next => exact (Option.ite_none_right_eq_some.mp found).1.1
    next => simp at found
  next => exact (Option.ite_none_right_eq_some.mp found).1

theorem operatorAt?_eq_none {op : Operator} {t : Token} (absent : t.kind ≠ opening op)
    (afterNot : Bool) (ts : List Token) : Token.operatorAt? op afterNot t ts = none :=
  Option.eq_none_iff_forall_ne_some.mpr fun _ found => absent (kind_of_operatorAt? found)

/-- A token where the operator does not start is put before what the rest gives. -/
theorem findOperator?_cons {op : Operator} {afterNot : Bool} {t : Token} {ts : List Token}
    (absent : Token.operatorAt? op afterNot t ts = none) (depth : Nat) :
    Token.findOperator? op depth afterNot (t :: ts) =
      (Token.findOperator? op (Token.depthAfter depth t) (t.kind = .not) ts).map
        fun (front, after) => (t :: front, after) := by
  rw [Token.findOperator?]
  simp [absent]

theorem findOperator?_here {op : Operator} {afterNot : Bool} {t : Token} {ts after : List Token}
    (left : t.kind ≠ .leftParen) (right : t.kind ≠ .rightParen)
    (found : Token.operatorAt? op afterNot t ts = some after) :
    Token.findOperator? op 0 afterNot (t :: ts) = some ([], after) := by
  rw [Token.findOperator?]
  simp [left, right, found]

/-- An operator that starts at none of the tokens is not found. -/
theorem findOperator?_eq_none {op : Operator} {ts : List Token}
    (absent : ∀ t ∈ ts, ∀ afterNot rest, Token.operatorAt? op afterNot t rest = none)
    (depth : Nat) (afterNot : Bool) : Token.findOperator? op depth afterNot ts = none := by
  induction ts generalizing depth afterNot with
  | nil => rfl
  | cons t ts ih =>
    rw [findOperator?_cons (absent t (by simp) _ _),
      ih fun t member => absent t (List.mem_cons_of_mem _ member)]
    rfl

/-- An operator right after a word is found there. -/
theorem findOperator?_second {op : Operator} {field t : Token} {rest after : List Token}
    (word : field.kind = .word) (left : t.kind ≠ .leftParen) (right : t.kind ≠ .rightParen)
    (found : Token.operatorAt? op false t rest = some after) :
    Token.findOperator? op 0 false (field :: t :: rest) = some ([field], after) := by
  have first : field.kind ≠ opening op := by
    rw [word]
    exact (opening_ne_word op).1.symm
  have plain : Token.depthAfter 0 field = 0 :=
    Token.depthAfter_plain (by simp [word]) (by simp [word]) 0
  have notNot : decide (field.kind = .not) = false := by simp [word]
  rw [findOperator?_cons (operatorAt?_eq_none first _ _), plain, notNot,
    findOperator?_here left right found]
  rfl

/-- The one operator that occurs decides the leaf. -/
theorem leaf_of_only {op : Operator} {ts before after : List Token} (listed : op ∈ Operator.all)
    (others : ∀ other ∈ Operator.all, other ≠ op → Token.findOperator? other 0 false ts = none)
    (found : Token.findOperator? op 0 false ts = some (before, after)) :
    Condition.leaf ts = Condition.ofOperands op before after := by
  unfold Condition.leaf
  split
  next comparison some =>
    obtain ⟨first, member, result⟩ := List.exists_of_findSome?_eq_some some
    by_cases same : first = op
    · subst same
      simpa [found] using result.symm
    · simp [others first member same] at result
  next none =>
    have absent := List.findSome?_eq_none_iff.mp none op listed
    simp [found] at absent

/-! ### Tests of a field -/

theorem kinds_of_reads {ts : List Token} {ls : List Lexeme} (reads : List.Forall₂ Reads ts ls) :
    ts.map Token.kind = ls.map Lexeme.kind := by
  induction reads with
  | nil => rfl
  | cons first _ ih => simp [first.1, ih]

theorem reads_append {ts : List Token} {front back : List Lexeme}
    (reads : List.Forall₂ Reads ts (front ++ back)) :
    ∃ us vs, ts = us ++ vs ∧ List.Forall₂ Reads us front ∧ List.Forall₂ Reads vs back :=
  ⟨_, _, (List.take_append_drop front.length ts).symm, List.forall₂_take_append _ _ _ reads,
    List.forall₂_drop_append _ _ _ reads⟩

theorem kind_operand (v : Operand) : v.lexeme.kind = .word ∨ v.lexeme.kind = .string := by
  cases v with
  | word => exact .inl rfl
  | quoted => exact .inr rfl

/-- Neither operands nor the commas between them open an operator or a parenthesis. -/
theorem kind_listLexemes {values : List Operand} {l : Lexeme} (member : l ∈ listLexemes values) :
    l.kind = .word ∨ l.kind = .string ∨ l.kind = .comma := by
  cases values with
  | nil => simp [listLexemes] at member
  | cons v values =>
    simp only [listLexemes, List.mem_cons, List.mem_flatMap, List.not_mem_nil, or_false] at member
    rcases member with rfl | ⟨w, _, rfl | rfl⟩
    · exact (kind_operand v).imp_right .inl
    · exact .inr (.inr rfl)
    · exact (kind_operand w).imp_right .inl

theorem solid_operand (v : Operand) {t : Token} (reads : Reads t v.lexeme) :
    Solid .comma ([t].map Token.kind) := by
  rw [List.map_singleton, reads.1]
  rcases kind_operand v with kind | kind <;> rw [kind] <;>
    exact .plain (by decide) (by decide) (by decide)

theorem parts_operands (v : Operand) (values : List Operand) {t : Token} {ts : List Token}
    (first : Reads t v.lexeme)
    (others : List.Forall₂ Reads ts (values.flatMap fun v => [.comma, v.lexeme])) :
    (Token.parts .comma (t :: ts)).map Condition.valueOf = (v :: values).map Operand.value := by
  have solid := solid_operand v first
  induction values generalizing v t ts with
  | nil =>
    obtain rfl := List.forall₂_nil_right_iff.mp others
    rw [Token.parts_solid (by decide) solid (by simp)]
    simp [valueOf_reads first]
  | cons w values ih =>
    obtain ⟨comma, following, separator, items, rfl⟩ := List.forall₂_cons_right_iff.mp others
    obtain ⟨u, us, second, remaining, rfl⟩ := List.forall₂_cons_right_iff.mp items
    rw [← List.singleton_append, Token.parts_joined (by decide) solid (by simp) separator.1,
      List.map_cons, ih w second remaining (solid_operand w second), valueOf_reads first]
    rfl

theorem kind_items {values : List Operand} {items : List Token}
    (reads : List.Forall₂ Reads items (listLexemes values)) {t : Token} (member : t ∈ items) :
    t.kind = .word ∨ t.kind = .string ∨ t.kind = .comma := by
  have kinds := kinds_of_reads reads
  have listed : t.kind ∈ (listLexemes values).map Lexeme.kind := by
    rw [← kinds]
    exact List.mem_map_of_mem member
  obtain ⟨l, inList, same⟩ := List.mem_map.mp listed
  rw [← same]
  exact kind_listLexemes inList

theorem balanced_listLexemes (values : List Operand) :
    Balanced ((listLexemes values).map Lexeme.kind) := by
  have solid : Solid .and ((listLexemes values).map Lexeme.kind) := by
    apply solid_of_plain
    intro k member
    obtain ⟨l, inList, rfl⟩ := List.mem_map.mp member
    rcases kind_listLexemes inList with kind | kind | kind <;> simp [kind]
  exact solid.balanced

theorem listOf_reads {values : List Operand} {l r : Token} {items : List Token}
    (left : l.kind = .leftParen) (right : r.kind = .rightParen)
    (reads : List.Forall₂ Reads items (listLexemes values)) :
    Condition.listOf (l :: items ++ [r]) = values.map Operand.value := by
  have balanced : Balanced (items.map Token.kind) := by
    rw [kinds_of_reads reads]
    exact balanced_listLexemes values
  rw [Condition.listOf, Token.enclosed?_nested left right balanced]
  cases values with
  | nil =>
    obtain rfl := List.forall₂_nil_right_iff.mp reads
    rfl
  | cons v values =>
    obtain ⟨t, ts, first, others, rfl⟩ := List.forall₂_cons_right_iff.mp reads
    exact parts_operands v values first others

/-- A symbol of the table is the one that its characters say. -/
theorem symbol_of_chars {sql : String} {meaning : Comparison} {op : Symbol}
    (listed : Operator.symbol sql meaning ∈ Operator.all) (same : op.chars = sql.toList) :
    sql = String.ofList op.chars ∧ meaning = op.meaning := by
  simp only [Operator.all, List.mem_cons, Operator.symbol.injEq, reduceCtorEq, List.not_mem_nil,
    or_false] at listed
  rw [same, String.ofList_toList]
  rcases listed with ⟨rfl, rfl⟩ | ⟨rfl, rfl⟩ | ⟨rfl, rfl⟩ | ⟨rfl, rfl⟩ | ⟨rfl, rfl⟩ | ⟨rfl, rfl⟩ <;>
    cases op <;> simp [Symbol.chars] at same <;> exact ⟨rfl, rfl⟩

/-- The operators that start with a keyword, by their keywords. -/
theorem opening_keyword {op : Operator} {k : TokenKind} (opens : opening op = k) :
    (k = .like → op = .like) ∧ (k = .isIn → op = .membership .isIn) ∧
      (k = .not → op = .membership .notIn) := by
  subst opens
  unfold opening
  split <;> simp

theorem operatorAt?_value {t : Token} (kind : t.kind = .word ∨ t.kind = .string) (op : Operator)
    (afterNot : Bool) (rest : List Token) : Token.operatorAt? op afterNot t rest = none := by
  apply operatorAt?_eq_none
  obtain ⟨word, string, _⟩ := opening_ne_word op
  rcases kind with kind | kind <;> rw [kind]
  · exact word.symm
  · exact string.symm

/-- Operands start no operator. -/
theorem operatorAt?_operand {t : Token} {v : Operand} (reads : Reads t v.lexeme) (op : Operator)
    (afterNot : Bool) (rest : List Token) : Token.operatorAt? op afterNot t rest = none :=
  operatorAt?_value (reads.1 ▸ kind_operand v) op afterNot rest

/-- An operator that starts neither at the token after the field nor further on is not found. -/
theorem findOperator?_test {op : Operator} {field t : Token} {w : Word} {rest : List Token}
    (word : Reads field (.word w))
    (second : ∀ afterNot rest, Token.operatorAt? op afterNot t rest = none)
    (operands : ∀ u ∈ rest, ∀ afterNot rest, Token.operatorAt? op afterNot u rest = none) :
    Token.findOperator? op 0 false (field :: t :: rest) = none := by
  apply findOperator?_eq_none
  intro u inside
  rcases List.mem_cons.mp inside with rfl | inside
  · exact operatorAt?_operand (v := .word w) word op
  rcases List.mem_cons.mp inside with rfl | inside
  · exact second
  · exact operands u inside

/-- A field, a symbol and one more token that is a word or a literal, closed or not. -/
theorem leaf_symbol {field t value : Token} {w : Word} {op : Symbol}
    (word : Reads field (.word w)) (symbol : Reads t (.symbol op))
    (plain : value.kind = .word ∨ value.kind = .string) :
    Condition.leaf [field, t, value] =
      .compare w.text op.meaning (Condition.valueOf [value]) := by
  obtain ⟨kind, spelled⟩ := symbol
  generalize same : t.text = chars at spelled
  cases spelled
  have kind : t.kind = .operator := kind
  have listed : .symbol (String.ofList op.chars) op.meaning ∈ Operator.all := by
    cases op <;> decide
  have here : Token.operatorAt? (.symbol (String.ofList op.chars) op.meaning) false t [value] =
      some [value] := by
    simp [Token.operatorAt?, kind, same]
  have found := findOperator?_second word.1 (by simp [kind]) (by simp [kind]) here
  have others : ∀ other ∈ Operator.all, other ≠ .symbol (String.ofList op.chars) op.meaning →
      Token.findOperator? other 0 false [field, t, value] = none := by
    intro other member different
    apply findOperator?_test word
    · intro afterNot rest
      -- The whole token is compared, so `>` is not found in `>=`.
      cases other with
      | symbol sql meaning =>
        have unlike : op.chars ≠ sql.toList := by
          intro equal
          obtain ⟨rfl, rfl⟩ := symbol_of_chars member equal
          exact different rfl
        simp [Token.operatorAt?, same, unlike]
      | membership test =>
        exact operatorAt?_eq_none (by rw [kind]; cases test <;> decide) afterNot rest
      | like => exact operatorAt?_eq_none (by rw [kind]; decide) afterNot rest
    · intro u inside
      obtain rfl := List.mem_singleton.mp inside
      exact operatorAt?_value plain other
  rw [leaf_of_only listed others found, Condition.ofOperands, textOf_reads word]

theorem leaf_compare {field t value : Token} {w : Word} {op : Symbol} {v : Operand}
    (word : Reads field (.word w)) (symbol : Reads t (.symbol op))
    (operand : Reads value v.lexeme) :
    Condition.leaf [field, t, value] = (Test.compare op v).condition w.text := by
  rw [leaf_symbol word symbol (operand.1 ▸ kind_operand v), valueOf_reads operand]
  rfl

theorem leaf_like {field t value : Token} {w : Word} {v : Operand} (word : Reads field (.word w))
    (keyword : t.kind = .like) (operand : Reads value v.lexeme) :
    Condition.leaf [field, t, value] = (Test.like v).condition w.text := by
  have here : Token.operatorAt? .like false t [value] = some [value] := by
    simp [Token.operatorAt?, keyword]
  have found := findOperator?_second word.1 (by simp [keyword]) (by simp [keyword]) here
  have others : ∀ other ∈ Operator.all, other ≠ .like →
      Token.findOperator? other 0 false [field, t, value] = none := by
    intro other _ different
    apply findOperator?_test word
    · apply operatorAt?_eq_none
      exact fun opens => different ((opening_keyword (keyword.symm.trans opens).symm).1 rfl)
    · intro u inside
      obtain rfl := List.mem_singleton.mp inside
      exact operatorAt?_operand operand other
  rw [leaf_of_only (by decide) others found, Condition.ofOperands, textOf_reads word,
    valueOf_reads operand]
  rfl

/-- A list in parentheses starts no operator. -/
theorem operatorAt?_list {values : List Operand} {l r : Token} {items : List Token}
    (left : l.kind = .leftParen) (right : r.kind = .rightParen)
    (reads : List.Forall₂ Reads items (listLexemes values)) (op : Operator) :
    ∀ t ∈ l :: items ++ [r], ∀ afterNot rest, Token.operatorAt? op afterNot t rest = none := by
  intro t member afterNot rest
  apply operatorAt?_eq_none
  obtain ⟨word, string, comma, opens, closes⟩ := opening_ne_word op
  simp only [List.cons_append, List.mem_cons, List.mem_append, List.not_mem_nil, or_false] at member
  rcases member with rfl | member | rfl
  · rw [left]
    exact opens.symm
  · rcases kind_items reads member with kind | kind | kind <;> rw [kind]
    · exact word.symm
    · exact string.symm
    · exact comma.symm
  · rw [right]
    exact closes.symm

theorem leaf_isIn {field t l r : Token} {w : Word} {values : List Operand} {items : List Token}
    (word : Reads field (.word w)) (keyword : t.kind = .isIn) (left : l.kind = .leftParen)
    (right : r.kind = .rightParen) (reads : List.Forall₂ Reads items (listLexemes values)) :
    Condition.leaf (field :: t :: (l :: items ++ [r])) =
      (Test.member .isIn values).condition w.text := by
  have here : Token.operatorAt? (.membership .isIn) false t (l :: items ++ [r]) =
      some (l :: items ++ [r]) := by
    simp [Token.operatorAt?, keyword]
  have found := findOperator?_second word.1 (by simp [keyword]) (by simp [keyword]) here
  have others : ∀ other ∈ Operator.all, other ≠ .membership .isIn →
      Token.findOperator? other 0 false (field :: t :: (l :: items ++ [r])) = none := by
    intro other _ different
    apply findOperator?_test word
    · apply operatorAt?_eq_none
      exact fun opens => different ((opening_keyword (keyword.symm.trans opens).symm).2.1 rfl)
    · exact operatorAt?_list left right reads other
  rw [leaf_of_only (by decide) others found, Condition.ofOperands, textOf_reads word,
    listOf_reads left right reads]
  rfl

/-- An IN after a NOT is no operator of its own, so the NOT IN is the only one. -/
theorem leaf_notIn {field n t l r : Token} {w : Word} {values : List Operand} {items : List Token}
    (word : Reads field (.word w)) (negation : n.kind = .not) (keyword : t.kind = .isIn)
    (left : l.kind = .leftParen) (right : r.kind = .rightParen)
    (reads : List.Forall₂ Reads items (listLexemes values)) :
    Condition.leaf (field :: n :: t :: (l :: items ++ [r])) =
      (Test.member .notIn values).condition w.text := by
  have here : Token.operatorAt? (.membership .notIn) false n (t :: (l :: items ++ [r])) =
      some (l :: items ++ [r]) := by
    simp [Token.operatorAt?, negation, keyword]
  have found := findOperator?_second word.1 (by simp [negation]) (by simp [negation]) here
  have others : ∀ other ∈ Operator.all, other ≠ .membership .notIn →
      Token.findOperator? other 0 false (field :: n :: t :: (l :: items ++ [r])) = none := by
    intro other _ different
    have first := operatorAt?_operand (v := .word w) word other false
    have second (afterNot : Bool) (rest : List Token) :
        Token.operatorAt? other afterNot n rest = none := by
      refine operatorAt?_eq_none (fun opens => different ?_) afterNot rest
      exact (opening_keyword (negation.symm.trans opens).symm).2.2 rfl
    -- What was read before the IN matters, so the tokens are taken one at a time here.
    have third (rest : List Token) : Token.operatorAt? other true t rest = none := by
      by_cases isIn : other = .membership .isIn
      · simp [isIn, Token.operatorAt?]
      · refine operatorAt?_eq_none (fun opens => isIn ?_) true rest
        exact (opening_keyword (keyword.symm.trans opens).symm).2.1 rfl
    rw [findOperator?_cons (first _), findOperator?_cons (second _ _),
      show decide (n.kind = .not) = true by simp [negation], findOperator?_cons (third _),
      findOperator?_eq_none (operatorAt?_list left right reads other)]
    rfl
  rw [leaf_of_only (by decide) others found, Condition.ofOperands, textOf_reads word,
    listOf_reads left right reads]
  rfl

/-- A test of a field is read as what it asks. -/
theorem leaf_test {w : Word} {test : Test} {ts : List Token}
    (reads : List.Forall₂ Reads ts (.word w :: test.lexemes)) :
    Condition.leaf ts = test.condition w.text := by
  obtain ⟨field, ts, word, asked, rfl⟩ := List.forall₂_cons_right_iff.mp reads
  cases test with
  | compare op v =>
    rcases asked with _ | ⟨symbol, _ | ⟨operand, _ | _⟩⟩
    exact leaf_compare word symbol operand
  | like v =>
    rcases asked with _ | ⟨keyword, _ | ⟨operand, _ | _⟩⟩
    exact leaf_like word keyword.1 operand
  | member test values =>
    obtain ⟨front, last, rfl, opened, closing⟩ := reads_append asked
    obtain ⟨keywords, list, rfl, named, listed⟩ := reads_append opened
    rcases closing with _ | ⟨right, _ | _⟩
    rcases listed with _ | ⟨left, items⟩
    cases test with
    | isIn =>
      rcases named with _ | ⟨keyword, _ | _⟩
      exact leaf_isIn word keyword.1 left.1 right.1 items
    | notIn =>
      rcases named with _ | ⟨negation, _ | ⟨keyword, _ | _⟩⟩
      exact leaf_notIn word negation.1 keyword.1 left.1 right.1 items

/-- A word alone is read as its text. -/
theorem leaf_word {w : Word} {t : Token} (reads : Reads t (.word w)) :
    Condition.leaf [t] = .truthy w.text := by
  have absent : ∀ op ∈ Operator.all, Token.findOperator? op 0 false [t] = none := by
    intro op _
    apply findOperator?_eq_none
    intro u member afterNot rest
    obtain rfl := List.mem_singleton.mp member
    exact operatorAt?_operand (v := .word w) reads op afterNot rest
  have none : (Operator.all.findSome? fun op => (Token.findOperator? op 0 false [t]).map
      fun (before, after) => Condition.ofOperands op before after) = none :=
    List.findSome?_eq_none_iff.mpr fun op listed => by rw [absent op listed]; rfl
  rw [Condition.leaf, none, textOf_reads reads]

end Surface

end SqlToMongo.Sql
