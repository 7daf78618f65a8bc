import ClassForge.Toml.Text

/-!
# Dates and times in a settings file

Dates and times follow the calendar: a month has the days that it has, and a leap second is allowed
in every minute. A date may be followed by a time, and only then by a distance from universal time.
Reading gives the normal spelling, in which the two are joined by a `T`, a fraction of a second has
at most nine digits and no zeros at the end, and a distance of zero has a plus. All this holds
alike for a date that is written directly into a file and for one that is spelled in a text.

## Main definitions

* `moment` — a date, a time or both
* `normalSpelling?` — the normal spelling of what is spelled in a text
-/

namespace ClassForge.Toml

open Scan

/-- A number of so many digits between two bounds, in its spelling. -/
def field (width low high : Nat) : Scan (Nat × String) := do
  let ds ← exactly Char.isDigit width
  let n := ofDigits 10 ds
  if low ≤ n ∧ n ≤ high then return (n, String.ofList ds) else failure

/-! ### Dates -/

/-- The number of days of a month. -/
def daysIn (year month : Nat) : Nat :=
  if month = 2 then
    if year % 4 = 0 ∧ (year % 100 ≠ 0 ∨ year % 400 = 0) then 29 else 28
  else if month = 4 ∨ month = 6 ∨ month = 9 ∨ month = 11 then 30
  else 31

/-- A date. -/
def date : Scan String := do
  let (year, y) ← field 4 0 9999
  char '-'
  let (month, m) ← field 2 1 12
  char '-'
  let (_, d) ← field 2 1 (daysIn year month)
  return y ++ "-" ++ m ++ "-" ++ d

/-! ### Times -/

/-- The normal spelling of a fraction of a second. -/
def fractionText (ds : List Char) : String :=
  match ((ds.take 9).reverse.dropWhile (· = '0')).reverse with
  | [] => ""
  | ds => String.ofList ('.' :: ds)

/-- A time of day. -/
def time : Scan String := do
  let (_, h) ← field 2 0 23
  char ':'
  let (_, m) ← field 2 0 59
  char ':'
  let (_, s) ← field 2 0 60
  let fraction ← attempt (do
    char '.'
    return (← one Char.isDigit) :: (← run Char.isDigit))
  return h ++ ":" ++ m ++ ":" ++ s ++ fraction.elim "" fractionText

/-- A distance from universal time. -/
def offset : Scan String :=
  (do
    discard (one fun c => c = 'Z' || c = 'z')
    return "Z") <|> do
    let mark ← one fun c => c = '+' || c = '-'
    let (hours, h) ← field 2 0 23
    char ':'
    let (minutes, m) ← field 2 0 59
    return (if mark = '-' ∧ (hours, minutes) ≠ (0, 0) then "-" else "+") ++ h ++ ":" ++ m

/-! ### Both -/

/-- A date, a time, or a date and a time. -/
def moment : Scan String := do
  match ← attempt date with
  | none => time
  | some d =>
    let t ← attempt (do
      discard (one fun c => c = 'T' || c = 't' || c = ' ')
      return "T" ++ (← time) ++ ((← attempt offset).getD ""))
    return d ++ t.getD ""

/-- The normal spelling of the date or time that the whole of a text spells. -/
def normalSpelling? (s : String) : Option String :=
  (do
    let spelling ← moment
    if ← atEnd then return spelling else failure : Scan String).run' s.toList

end ClassForge.Toml
