import AccessPolicy.Text.Digit

/-! The written form of dates and times: `1979-05-27`, `07:32:00.5`, or both with a `T` or a space
between them and perhaps an offset after them. Seconds may be left out, and only dates of the
calendar are written. -/

namespace AccessPolicy.Toml

/-- The value of so many digits, and what follows them. -/
def takeDecimal? (count : Nat) (s : List Char) : Option (Nat × List Char) :=
  let digits := s.take count
  if digits.length = count ∧ digits.all Char.isDigit then some (digitsValue digits, s.drop count)
  else none

/-- How long a month is. -/
def daysInMonth (year month : Nat) : Nat :=
  if month = 2 then
    if year % 4 = 0 ∧ (year % 100 ≠ 0 ∨ year % 400 = 0) then 29 else 28
  else if month = 4 ∨ month = 6 ∨ month = 9 ∨ month = 11 then 30
  else 31

/-- A text past a day that exists. -/
def takeDate? (s : List Char) : Option (List Char) := do
  let (year, s) ← takeDecimal? 4 s
  let '-' :: s := s | none
  let (month, s) ← takeDecimal? 2 s
  let '-' :: s := s | none
  let (day, s) ← takeDecimal? 2 s
  if 1 ≤ month ∧ month ≤ 12 ∧ 1 ≤ day ∧ day ≤ daysInMonth year month then some s else none

/-- A text past an hour and a minute. -/
def takeHourMinute? (s : List Char) : Option (List Char) := do
  let (hour, s) ← takeDecimal? 2 s
  let ':' :: s := s | none
  let (minute, s) ← takeDecimal? 2 s
  if hour ≤ 23 ∧ minute ≤ 59 then some s else none

/-- A text past the fraction of a second, if there is one. -/
def takeSubsecond? (s : List Char) : Option (List Char) :=
  match s with
  | '.' :: s => if (s.takeWhile Char.isDigit).isEmpty then none else some (s.dropWhile Char.isDigit)
  | s => some s

/-- What follows a time of day, such as `07:32:00.5`; there may be a leap second. -/
def takeTime? (s : List Char) : Option (List Char) := do
  match ← takeHourMinute? s with
  | ':' :: s =>
    let (second, s) ← takeDecimal? 2 s
    if second ≤ 60 then takeSubsecond? s else none
  | s => some s

/-- The offset of a time: none, the letter that stands for zero, or hours and minutes with a
sign. -/
def isOffset (s : List Char) : Bool :=
  match s with
  | [] | ['Z'] | ['z'] => true
  | c :: s => (c == '+' || c == '-') && takeHourMinute? s == some []

/-- What stands between a date and a time. -/
def isDateEnd (c : Char) : Bool := c == 'T' || c == 't' || c == ' '

/-- Whether a text is a date, a time, or a date with a time and perhaps an offset. -/
def isDatetime (s : List Char) : Bool :=
  match takeDate? s with
  | some [] => true
  | some (c :: s) => isDateEnd c && (takeTime? s).any isOffset
  | none => takeTime? s == some []

end AccessPolicy.Toml
