import SqlToMongo.Text.Split

/-!
# Dates and times

A plain scalar can be a date, or a date with a time of day. The parts have one or two digits.
-/

namespace SqlToMongo.Yaml.Moment

open Text

/-- A number of one or two digits, and what follows it. -/
def short? : List Char → Option (Nat × List Char)
  | p :: q :: rest =>
    if p.isDigit then
      if q.isDigit then (digitsValue? [p, q]).map (·, rest) else (digitsValue? [p]).map (·, q :: rest)
    else none
  | [p] => (digitsValue? [p]).map (·, [])
  | [] => none

/-- A short number up to a bound. -/
def bounded? (most : Nat) (s : List Char) : Option (Nat × List Char) := do
  let (n, rest) ← short? s
  if n ≤ most then some (n, rest) else none

def skip? (mark : Char) : List Char → Option (List Char)
  | c :: rest => if c = mark then some rest else none
  | [] => none

def isLeapYear (year : Nat) : Bool := year % 4 == 0 && (year % 100 != 0 || year % 400 == 0)

def daysOf (year month : Nat) : Nat :=
  if month = 2 then (if isLeapYear year then 29 else 28)
  else if [4, 6, 9, 11].contains month then 30 else 31

/-- A year of four digits, a month and a day of it; what follows. -/
def date? (s : List Char) : Option (List Char) := do
  let year ← digitsValue? (s.take 4)
  let rest ← skip? '-' (s.drop 4)
  let (month, rest) ← bounded? 12 rest
  let rest ← skip? '-' rest
  let (day, rest) ← short? rest
  if 1 ≤ month ∧ 1 ≤ day ∧ day ≤ daysOf year month then some rest else none

/-- What follows a fraction of a second, which need not be there. -/
def afterFraction (s : List Char) : List Char :=
  match s with
  | mark :: d :: rest =>
    if (mark == '.' || mark == ',') && d.isDigit then rest.dropWhile Char.isDigit else s
  | _ => s

/-- Hours, minutes and seconds; what follows. -/
def time? (s : List Char) : Option (List Char) := do
  let (_, rest) ← bounded? 23 s
  let (_, rest) ← bounded? 59 (← skip? ':' rest)
  let (_, rest) ← bounded? 59 (← skip? ':' rest)
  return afterFraction rest

/-- A difference to universal time: none, or hours and minutes of two digits. -/
def isZone : List Char → Bool
  | ['Z'] => true
  | [sign, p, q, ':', r, s] =>
    (sign == '+' || sign == '-') &&
      match digitsValue? [p, q], digitsValue? [r, s] with
      | some hours, some minutes => hours ≤ 24 && minutes ≤ 60
      | _, _ => false
  | _ => false

/-- Whether a text is a date, with or without a time. A time after blanks has no zone, and one after a
letter must have one. -/
def isMoment (s : List Char) : Bool :=
  match date? s with
  | none => false
  | some [] => true
  | some (' ' :: rest) => time? (rest.dropWhile (· == ' ')) == some []
  | some (mark :: rest) => (mark == 'T' || mark == 't') && ((time? rest).map isZone).getD false

end SqlToMongo.Yaml.Moment
