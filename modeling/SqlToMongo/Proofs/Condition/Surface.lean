import SqlToMongo.Sql.ConditionParser

/-!
# Conditions as they are written

The surface grammar of a WHERE or HAVING clause, the condition that each of its trees stands for,
and the texts that write a tree. Keywords may be in any letter case, and any blanks may stand
between two lexemes; only two lexemes that are both words need something between them.
-/

namespace SqlToMongo.Sql.Surface

open Mongo Text

/-- The words that have a meaning of their own. -/
inductive Keyword where
  | and
  | or
  | not
  | isIn
  | like
  deriving DecidableEq, Repr

namespace Keyword

def all : List Keyword := [and, or, not, isIn, like]

/-- The keyword in small letters. -/
def letters : Keyword → List Char
  | and => ['a', 'n', 'd']
  | or => ['o', 'r']
  | not => ['n', 'o', 't']
  | isIn => ['i', 'n']
  | like => ['l', 'i', 'k', 'e']

def kind : Keyword → TokenKind
  | and => .and
  | or => .or
  | not => .not
  | isIn => .isIn
  | like => .like

end Keyword

/-- The characters of words: neither blank nor one of `= ! < > ( ) , ' "`. -/
def isWordChar (c : Char) : Bool :=
  !isBlank c && !(['=', '!', '<', '>', '(', ')', ',', '\'', '"'].contains c)

/-- A run of word characters that is no keyword. -/
structure Word where
  chars : List Char
  nonempty : chars ≠ [] := by decide
  unbroken : chars.all isWordChar = true := by decide
  plain : ∀ k ∈ Keyword.all, lowerAll chars ≠ k.letters := by decide

def Word.text (w : Word) : String := String.ofList w.chars

/-- A text between two marks that does not contain the mark. -/
structure Quoted where
  mark : Char
  content : List Char
  isMark : isQuote mark = true := by decide
  closed : mark ∉ content := by decide

/-- What a field is compared with. -/
inductive Operand where
  | word (w : Word)
  | quoted (t : Quoted)

/-- The value of an operand: a quoted one loses its marks. -/
def Operand.value : Operand → String
  | .word w => w.text
  | .quoted t => String.ofList t.content

/-- The comparison symbols. -/
inductive Symbol where
  | eq
  | ne
  | gt
  | gte
  | lt
  | lte
  deriving DecidableEq, Repr

namespace Symbol

def chars : Symbol → List Char
  | eq => ['=']
  | ne => ['!', '=']
  | gt => ['>']
  | gte => ['>', '=']
  | lt => ['<']
  | lte => ['<', '=']

def meaning : Symbol → Comparison
  | eq => .eq
  | ne => .ne
  | gt => .gt
  | gte => .gte
  | lt => .lt
  | lte => .lte

end Symbol

/-- What is asked of a field. -/
inductive Test where
  | compare (op : Symbol) (value : Operand)
  | like (pattern : Operand)
  | member (test : Membership) (values : List Operand)

mutual

inductive Atom where
  | word (w : Word)
  | test (field : Word) (test : Test)
  /-- A clause in parentheses. -/
  | clause (c : Clause)

/-- One atom, or two and more with OR between them. -/
inductive Segment where
  | atom (a : Atom)
  | or (a : Atom) (rest : Segment)

/-- Segments with AND between them. -/
inductive Clause where
  | empty
  | and (s : Segment) (rest : Clause)

end

/-! ### What a tree stands for -/

def Test.condition (field : String) : Test → Condition
  | .compare op value => .compare field op.meaning value.value
  | .like pattern => .compare field .regex (Condition.likePattern pattern.value)
  | .member test values => .member field test (values.map Operand.value)

mutual

def Atom.condition : Atom → Condition
  | .word w => .truthy w.text
  | .test field test => test.condition field.text
  | .clause c => .all c.conditions

/-- A single atom is itself; two and more are a disjunction. -/
def Segment.condition : Segment → Condition
  | .atom a => a.condition
  | .or a rest => .any (a.condition :: rest.alternatives)

def Segment.alternatives : Segment → List Condition
  | .atom a => [a.condition]
  | .or a rest => a.condition :: rest.alternatives

def Clause.conditions : Clause → List Condition
  | .empty => []
  | .and s rest => s.condition :: rest.conditions

end

/-! ### Lexemes -/

inductive Lexeme where
  | word (w : Word)
  | quoted (t : Quoted)
  | symbol (op : Symbol)
  | leftParen
  | rightParen
  | comma
  | keyword (k : Keyword)

namespace Lexeme

def kind : Lexeme → TokenKind
  | word _ => .word
  | quoted _ => .string
  | symbol _ => .operator
  | leftParen => .leftParen
  | rightParen => .rightParen
  | comma => .comma
  | keyword k => k.kind

def isWordLike : Lexeme → Bool
  | word _ => true
  | keyword _ => true
  | _ => false

/-- Whether a lexeme and the next one would run together without something between them. -/
def meetsWord (l : Lexeme) (following : List Lexeme) : Bool :=
  l.isWordLike && following.head?.any isWordLike

end Lexeme

def Operand.lexeme : Operand → Lexeme
  | .word w => .word w
  | .quoted t => .quoted t

/-- Operands with commas between them. -/
def listLexemes : List Operand → List Lexeme
  | [] => []
  | v :: vs => v.lexeme :: vs.flatMap fun v => [.comma, v.lexeme]

/-- The keywords of a membership test. -/
def membershipLexemes : Membership → List Lexeme
  | .isIn => [.keyword .isIn]
  | .notIn => [.keyword .not, .keyword .isIn]

def Test.lexemes : Test → List Lexeme
  | .compare op value => [.symbol op, value.lexeme]
  | .like pattern => [.keyword .like, pattern.lexeme]
  | .member test values =>
    membershipLexemes test ++ .leftParen :: listLexemes values ++ [.rightParen]

mutual

def Atom.lexemes : Atom → List Lexeme
  | .word w => [.word w]
  | .test field test => .word field :: test.lexemes
  | .clause c => .leftParen :: c.lexemes ++ [.rightParen]

def Segment.lexemes : Segment → List Lexeme
  | .atom a => a.lexemes
  | .or a rest => a.lexemes ++ .keyword .or :: rest.lexemes

def Clause.lexemes : Clause → List Lexeme
  | .empty => []
  | .and s rest => s.lexemes ++ rest.followers

/-- The segments after the first, each with its AND. -/
def Clause.followers : Clause → List Lexeme
  | .empty => []
  | .and s rest => .keyword .and :: s.lexemes ++ rest.followers

end

/-! ### Texts -/

/-- The texts of a lexeme. Only keywords have more than one: any letter case will do. -/
inductive Spells : Lexeme → List Char → Prop where
  | word (w : Word) : Spells (.word w) w.chars
  | quoted (t : Quoted) : Spells (.quoted t) (t.mark :: t.content ++ [t.mark])
  | symbol (op : Symbol) : Spells (.symbol op) op.chars
  | leftParen : Spells .leftParen ['(']
  | rightParen : Spells .rightParen [')']
  | comma : Spells .comma [',']
  | keyword {k : Keyword} (text : List Char) :
      text.map Char.toLower = k.letters → Spells (.keyword k) text

/-- Blanks and nothing else, possibly none. -/
def Blanks (gap : List Char) : Prop := gap.all isBlank = true

instance (gap : List Char) : Decidable (Blanks gap) :=
  inferInstanceAs (Decidable (gap.all isBlank = true))

/-- The texts of a run of lexemes. A gap follows each lexeme, and may be empty unless the lexeme
and the next one are both words. -/
inductive Written : List Lexeme → List Char → Prop where
  | nil : Written [] []
  | cons {l : Lexeme} {ls : List Lexeme} {text tail : List Char} (gap : List Char) :
      Spells l text → Blanks gap → (l.meetsWord ls = true → gap ≠ []) → Written ls tail →
      Written (l :: ls) (text ++ gap ++ tail)

/-- The texts of a clause. -/
def Clause.Writes (c : Clause) (s : List Char) : Prop :=
  ∃ lead body, Blanks lead ∧ Written c.lexemes body ∧ s = lead ++ body

/-- A lexeme with its keyword in small letters. -/
def Lexeme.plain : Lexeme → List Char
  | word w => w.chars
  | quoted t => t.mark :: t.content ++ [t.mark]
  | symbol op => op.chars
  | leftParen => ['(']
  | rightParen => [')']
  | comma => [',']
  | keyword k => k.letters

/-- The lexemes of a clause with a blank after each. -/
def Clause.text (c : Clause) : List Char :=
  c.lexemes.flatMap fun l => l.plain ++ [' ']

theorem Lexeme.spells_plain (l : Lexeme) : Spells l l.plain := by
  cases l with
  | keyword k => exact .keyword _ (by cases k <;> decide)
  | _ => constructor

/-- Every clause has a text. -/
theorem Clause.writes_text (c : Clause) : c.Writes c.text := by
  refine ⟨[], c.text, by decide, ?_, rfl⟩
  unfold Clause.text
  induction c.lexemes with
  | nil => exact .nil
  | cons l rest ih => exact .cons [' '] l.spells_plain (by decide) (by simp) ih

end SqlToMongo.Sql.Surface
