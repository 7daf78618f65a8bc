import ClassForge.Toml.Number
import ClassForge.Toml.Tree

/-!
# Reading a settings file

A settings file is a sequence of lines. A line is empty, or it has an entry, which belongs to the
table of the last header, or it is a header. Only values may go over several lines.

Values nest, so the scanners for values take the number of levels that are still allowed, and for
the loops inside a level a bound that the length of the text exceeds.

## Main definitions

* `Toml.value` — a value
* `Toml.parse?` — the table that a text stands for, unless the text breaks a rule
-/

namespace ClassForge.Toml

open Scan

/-- How many levels arrays and tables in braces may not reach. -/
def nestingLimit : Nat := 80

/-! ### Keys -/

/-- Whether the character may stand in a key without quotes. -/
def isKeyChar (c : Char) : Bool := c.isAlphanum || c = '_' || c = '-'

/-- A key with or without quotes. -/
def key : Scan String := do
  match ← peek? with
  | some '"' | some '\'' => lineText
  | _ => return String.ofList ((← one isKeyChar) :: (← run isKeyChar))

/-- The keys after the first of a dotted key. -/
def moreKeys : Nat → Scan (List String)
  | 0 => return []
  | n + 1 => do
    match ← peek? with
    | some '.' =>
      char '.'
      blanks
      let k ← key
      blanks
      return k :: (← moreKeys n)
    | _ => return []

/-- A dotted key with the blanks around it: the path to its last part, and that part. -/
def dottedKey : Scan (List String × String) := do
  blanks
  let first ← key
  blanks
  let keys := first :: (← moreKeys nestingLimit)
  match keys.reverse with
  | last :: path => if keys.length < nestingLimit then return (path.reverse, last) else failure
  | [] => failure

/-! ### Values -/

mutual

/-- A value with at most so many levels. -/
def value (levels : Nat) : Nat → Scan Value
  | 0 => failure
  | n + 1 => do
    match ← peek? with
    | some '"' | some '\'' => .text <$> text
    | some '[' =>
      char '['
      if levels = 0 then failure else return .array (← items (levels - 1) n)
    | some '\x7b' =>
      char '\x7b'
      if levels = 0 then failure
      else
        blanks
        match ← peek? with
        | some '\x7d' => char '\x7d'; return .table []
        | _ => return (← entries (levels - 1) n default).toValue
    | some 't' => word "true"; return .boolean true
    | some 'f' => word "false"; return .boolean false
    | _ => number

/-- The items of an array up to its end. A comma may follow the last one. -/
def items (levels : Nat) : Nat → Scan (List Value)
  | 0 => failure
  | n + 1 => do
    space
    match ← peek? with
    | some ']' => char ']'; return []
    | _ =>
      let v ← value levels n
      space
      match ← peek? with
      | some ',' => char ','; return v :: (← items levels n)
      | _ => char ']'; return [v]

/-- The entries of a table in braces up to its end, with those before them in a tree. -/
def entries (levels : Nat) : Nat → Tree → Scan Tree
  | 0, _ => failure
  | n + 1, tree => do
    let (path, k) ← dottedKey
    char '='
    blanks
    let v ← value levels n
    blanks
    let tree ← (tree.insert? path k v).elim failure pure
    match ← peek? with
    | some ',' => char ','; entries levels n tree
    | _ => char '\x7d'; return tree

end

/-! ### Lines -/

/-- A document up to some line. -/
structure Progress where
  tree : Tree := default
  /-- The path of the last header. -/
  header : List String := []

/-- The document after a header. -/
def openWith (openAt : List String → String → Tree → Option Tree) (s : Progress)
    (k : List String × String) : Scan Progress :=
  (openAt k.1 k.2 s.tree).elim failure fun tree => pure ⟨tree, k.1 ++ [k.2]⟩

/-- A header and the end of its line. -/
def headerLine (s : Progress) : Scan Progress := fun cs =>
  (match cs with
  | '[' :: '[' :: cs => (do
    let k ← dottedKey
    word "]]"
    lineEnd
    openWith Tree.openItem? s k : Scan Progress) cs
  | cs => (do
    char '['
    let k ← dottedKey
    char ']'
    lineEnd
    openWith Tree.openTable? s k : Scan Progress) cs)

/-- An entry and the end of its line. -/
def entryLine (s : Progress) (bound : Nat) : Scan Progress := do
  let (path, k) ← dottedKey
  char '='
  blanks
  let v ← value (nestingLimit - 1) bound
  lineEnd
  let tree ← (s.tree.alter? false (·.insert? path k v) s.header).elim failure pure
  return { s with tree }

/-- The lines up to the end of the text. -/
def lines (bound : Nat) : Nat → Progress → Scan Tree
  | 0, _ => failure
  | n + 1, s => do
    blanks
    match ← peek? with
    | none => return s.tree
    | some '#' => comment; lineEnd; lines bound n s
    | some '\n' | some '\r' => newline; lines bound n s
    | some '[' => lines bound n (← headerLine s)
    | _ => lines bound n (← entryLine s bound)

/-- The table that a text stands for. A mark of the byte order at the start is left out. -/
def parse? (text : String) : Option Value :=
  let cs := match text.toList with
    | '\ufeff' :: cs => cs
    | cs => cs
  let bound := 2 * cs.length + 2
  ((lines bound bound {}).run' cs).map Tree.toValue

end ClassForge.Toml
