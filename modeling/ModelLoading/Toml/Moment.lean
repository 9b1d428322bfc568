import ModelLoading.Toml.Number

/-!
# Dates and times

A moment is a date, a time, or a date with a time and possibly an offset. It is kept as it is written;
only its parts are checked.
-/

namespace ModelLoading.Toml

/-- Takes a number of two digits, which must not be greater than a bound. -/
def twoDigits (least greatest : Nat) : Parser Nat := do
  match ← get with
  | a :: b :: rest =>
    let n := valueOf 10 [a, b]
    if isDigit a ∧ isDigit b ∧ least ≤ n ∧ n ≤ greatest then
      set rest
      return n
    else Parser.refuse
  | _ => Parser.refuse

/-- Whether a year has a leap day. -/
def isLeapYear (year : Nat) : Bool := year % 4 = 0 ∧ (year % 100 ≠ 0 ∨ year % 400 = 0)

/-- The number of days of a month. -/
def daysOf (year month : Nat) : Nat :=
  match month with
  | 2 => if isLeapYear year then 29 else 28
  | 4 | 6 | 9 | 11 => 30
  | _ => 31

/-- Whether a date follows: four digits and a hyphen. -/
def startsDate : List Char → Bool
  | a :: b :: c :: d :: '-' :: _ => isDigit a && isDigit b && isDigit c && isDigit d
  | _ => false

/-- Whether a time follows: an hour and a colon. -/
def startsTime : List Char → Bool
  | a :: b :: ':' :: _ => isDigit a && isDigit b && valueOf 10 [a, b] ≤ 23
  | _ => false

/-- Takes a date. -/
def date : Parser Unit := do
  let year := valueOf 10 ((← get).take 4)
  modify (·.drop 5)
  let month ← twoDigits 1 12
  Parser.expect '-'
  discard (twoDigits 1 (daysOf year month))

/-- Takes a time. -/
def time : Parser Unit := do
  discard (twoDigits 0 23)
  Parser.expect ':'
  discard (twoDigits 0 59)
  Parser.expect ':'
  discard (twoDigits 0 60)
  match ← get with
  | '.' :: c :: rest => if isDigit c then set (rest.dropWhile isDigit)
  | _ => return

/-- Takes an offset from universal time, if one follows. -/
def offset : Parser Unit := do
  match ← Parser.peek with
  | some 'Z' | some 'z' => Parser.skip
  | some '+' | some '-' =>
    Parser.skip
    discard (twoDigits 0 23)
    Parser.expect ':'
    discard (twoDigits 0 59)
  | _ => return

/-- Whether a time follows a date: after a letter or a space. -/
def continuesDate : List Char → Bool
  | c :: rest => (c = 'T' || c = 't' || c = ' ') && startsTime rest
  | [] => false

/-- Whether a moment follows. -/
def startsMoment (s : List Char) : Bool := startsDate s || startsTime s

/-- Takes a moment. -/
def moment : Parser Value := do
  let whole ← get
  if startsDate whole then
    date
    if continuesDate (← get) then
      Parser.skip
      time
      offset
  else time
  return .moment (.ofList (whole.take (whole.length - (← get).length)))

end ModelLoading.Toml
