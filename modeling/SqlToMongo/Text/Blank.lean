/-!
# Blank characters

Three notions of white space meet in a statement. *Blank* is the Unicode property
`White_Space`: it separates tokens and is trimmed from the ends of a text. *Layout* is its ASCII
part: runs of it outside literals are collapsed. A *gap* is what may stand between two keywords:
the layout characters without the vertical tab.
-/

namespace SqlToMongo.Text

/-- The characters with the Unicode property `White_Space`. -/
def isBlank (c : Char) : Bool :=
  let n := c.toNat
  (0x09 ≤ n && n ≤ 0x0D) || n == 0x20 || n == 0x85 || n == 0xA0 || n == 0x1680 ||
    (0x2000 ≤ n && n ≤ 0x200A) || n == 0x2028 || n == 0x2029 || n == 0x202F || n == 0x205F ||
    n == 0x3000

/-- TAB, LF, VT, FF, CR and space. -/
def isLayout (c : Char) : Bool :=
  c == '\t' || c == '\n' || c == '\x0b' || c == '\x0c' || c == '\r' || c == ' '

/-- TAB, LF, FF, CR and space: what may stand between two keywords. -/
def isGap (c : Char) : Bool :=
  c == '\t' || c == '\n' || c == '\x0c' || c == '\r' || c == ' '

theorem isLayout_of_isGap {c : Char} (h : isGap c = true) : isLayout c = true := by
  simp only [isGap, Bool.or_eq_true] at h
  rcases h with (((h | h) | h) | h) | h <;> simp [isLayout, h]

theorem isBlank_of_isLayout {c : Char} (h : isLayout c = true) : isBlank c = true := by
  simp only [isLayout, Bool.or_eq_true, beq_iff_eq] at h
  rcases h with ((((h | h) | h) | h) | h) | h <;> subst h <;> decide

/-- A text without its leading blanks. -/
def trimStart (s : List Char) : List Char :=
  s.dropWhile isBlank

/-- A text without its trailing blanks. -/
def trimEnd (s : List Char) : List Char :=
  (s.reverse.dropWhile isBlank).reverse

/-- A text without the blanks at its two ends. -/
def trim (s : List Char) : List Char :=
  trimEnd (trimStart s)

/-- Nothing but blanks. -/
def isAllBlank (s : String) : Bool :=
  s.toList.all isBlank

/-- The string without the blanks at its two ends. -/
def trimmed (s : String) : String :=
  String.ofList (trim s.toList)

end SqlToMongo.Text
