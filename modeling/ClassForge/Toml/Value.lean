/-!
# Values of a settings file

A settings file is written in TOML. Once it is read it is a table of values, and the way a value was
spelled plays no part any more. The entries of a table keep the order in which they were made, but
all that ever counts of it is which entry comes first.

Two kinds of values are never used here for what they are: of a number with a fraction only its kind
is kept, and of a date or time its normal spelling.
-/

namespace ClassForge.Toml

/-- A value in a settings file. -/
inductive Value where
  | text (s : String)
  | integer (n : Int)
  | float
  | boolean (b : Bool)
  /-- A date, a time or both, in its normal spelling. -/
  | dateTime (spelling : String)
  | array (items : List Value)
  | table (entries : List (String × Value))
deriving Inhabited

/-- The value of a key in the entries of a table. -/
def lookup? (key : String) (entries : List (String × Value)) : Option Value :=
  entries.lookup key

end ClassForge.Toml
