import ClassForge.Text.Blank
import ClassForge.Text.Numeric

/-!
# The parts of a type name

A type name such as `java.util.Map<K, V[]>` is read in two steps. This is the first: the text is
cut into parts, and the grammar of the second step sees parts only.

Blanks are parts too, because the two kinds of blank differ. An ASCII blank is stepped over
wherever a part may start. A blank outside ASCII takes several bytes, the step is one byte long,
and what follows would start inside a character; so it can only be met, not passed.
-/

namespace ClassForge.TypeRef

/-- A part of the text of a type name. -/
inductive Token where
  /-- A longest run of letters, digits, `_`, `$` and `.`. -/
  | name (text : String)
  /-- The `<` before type arguments. -/
  | openArguments
  /-- The `,` between type arguments. -/
  | comma
  /-- The `>` after type arguments. -/
  | closeArguments
  /-- The two characters `[]`. -/
  | brackets
  /-- An ASCII blank. -/
  | blank
  /-- A blank outside ASCII. -/
  | wideBlank
  /-- A character that no type name has. -/
  | other (c : Char)
deriving DecidableEq

/-- Whether `c` may stand in a name. -/
def isNameChar (c : Char) : Bool :=
  Text.isAlphanumeric c || c == '_' || c == '$' || c == '.'

namespace Token

/-- The part that a character outside names is. -/
def ofChar (c : Char) : Token :=
  match c with
  | '<' => openArguments
  | ',' => comma
  | '>' => closeArguments
  | c => if Text.isBlank c then (if c.toNat < 0x80 then blank else wideBlank) else other c

/-- The parts with the characters `word` in front, which are a part of their own if there are
any. -/
def startName (word : List Char) (parts : List Token) : List Token :=
  if word.isEmpty then parts else .name (String.ofList word) :: parts

/-- The name that a text starts with, and the parts of what follows. -/
def scan : List Char → List Char × List Token
  | [] => ([], [])
  | '[' :: ']' :: cs => ([], brackets :: startName (scan cs).1 (scan cs).2)
  | c :: cs =>
    let (word, parts) := scan cs
    if isNameChar c then (c :: word, parts) else ([], ofChar c :: startName word parts)

/-- The parts of a text. -/
def ofChars (cs : List Char) : List Token :=
  let (word, parts) := scan cs
  startName word parts

end Token

end ClassForge.TypeRef
