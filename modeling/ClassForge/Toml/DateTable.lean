import ClassForge.Toml.DateTime
import ClassForge.Toml.Value

/-!
# Tables that stand for dates

A date or a time can also be handed on as a table: its first entry has a key reserved for this, and
the text there spells the date. What else is in such a table does not count. The key anywhere but
in the first place is a key like any other.

Whoever takes values for what they stand for replaces these tables first, at every depth. A table
whose reserved entry spells no date stands for nothing.

## Main definitions

* `Value.withDates?` — a value with dates in the place of such tables
-/

namespace ClassForge.Toml

/-- The reserved key. -/
def dateKey : String := "$__toml_private_datetime"

/-- What is said to be a date, in a table with the given entries. -/
def reserved? : List (String × Value) → Option Value
  | (key, v) :: _ => if key = dateKey then some v else none
  | [] => none

namespace Value

/-- The date or the time that a text spells. -/
def asDate? : Value → Option Value
  | text s => (normalSpelling? s).map dateTime
  | _ => none

mutual

/-- The value with dates in the place of the tables that stand for them. -/
def withDates? : Value → Option Value
  | table entries =>
    match reserved? entries with
    | some v => v.asDate?
    | none => (entriesWithDates? entries).map table
  | array items => (itemsWithDates? items).map array
  | v => some v

/-- The entries with dates in the place of the tables that stand for them. -/
def entriesWithDates? : List (String × Value) → Option (List (String × Value))
  | [] => some []
  | (key, v) :: es => do return (key, ← withDates? v) :: (← entriesWithDates? es)

/-- The items with dates in the place of the tables that stand for them. -/
def itemsWithDates? : List Value → Option (List Value)
  | [] => some []
  | v :: vs => do return (← withDates? v) :: (← itemsWithDates? vs)

end

end Value

end ClassForge.Toml
