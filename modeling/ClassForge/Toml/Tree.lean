import ClassForge.Toml.Value

/-!
# Putting tables together

Entries and headers arrive one after the other and name their places by paths of keys. A tree
collects them, and it refuses what would define a place twice. For that a table remembers how it
came about: a table that a header or braces wrote is complete, one that only lies on the path of a
header can still get a header of its own, and one that dotted keys made is open to dotted keys
alone. The entries of a table are kept in the order in which they were made.

## Main definitions

* `Tree` — what has been read so far
* `Tree.insert?` — an entry at a path of keys
* `Tree.openTable?`, `Tree.openItem?` — the headers of a table and of an item of a list of tables
* `Tree.toValue` — the tree without memory
-/

namespace ClassForge.Toml

/-- How a table came about. -/
inductive Origin where
  /-- It was written as a table. -/
  | written
  /-- A header below it made it. -/
  | header
  /-- Dotted keys made it. -/
  | dotted
deriving DecidableEq

/-- What has been read so far at one place. -/
inductive Tree where
  | leaf (value : Value)
  | table (origin : Origin) (entries : List (String × Tree))
  /-- A list of tables, the last one and the ones before it, newest first. -/
  | tables (last : Tree) (earlier : List Tree)

namespace Tree

instance : Inhabited Tree := ⟨table .written []⟩

/-- Changes the entry of a key, or makes one; `change` may refuse. -/
def alterFirst? (key : String) (change : Option Tree → Option Tree) :
    List (String × Tree) → Option (List (String × Tree))
  | [] => (change none).map fun t => [(key, t)]
  | e :: es =>
    if e.1 = key then (change (some e.2)).map fun t => (key, t) :: es
    else (alterFirst? key change es).map (e :: ·)

/-- Changes the table at a path, on which missing tables are made. With `viaDots` the path consists
of dotted keys, and these do not go into tables that were written. -/
def alter? (viaDots : Bool) (change : Tree → Option Tree) : List String → Tree → Option Tree
  | [], t => change t
  | key :: path, table origin entries =>
    (alterFirst? key (step path) entries).map (table origin)
  | _, _ => none
where
  /-- The next place on the path. -/
  step (path : List String) : Option Tree → Option Tree
    | none => alter? viaDots change path (table (if viaDots then .dotted else .header) [])
    | some (leaf _) => none
    | some (tables last earlier) => (alter? viaDots change path last).map (tables · earlier)
    | some (table .written entries) =>
      if viaDots then none else alter? viaDots change path (table .written entries)
    | some t => alter? viaDots change path t

/-- Adds an entry to the table at a path of dotted keys. Dotted keys and a table written as such do
not share a table. -/
def insert? (path : List String) (key : String) (value : Value) : Tree → Option Tree :=
  alter? true add path
where
  add : Tree → Option Tree
    | table origin entries =>
      if (origin = .dotted) ↔ path = [] then none
      else (alterFirst? key place entries).map (table origin)
    | _ => none
  /-- The value, where there is none yet. -/
  place : Option Tree → Option Tree
    | none => some (leaf value)
    | some _ => none

/-- Starts the table at the path of a header. A table that was there because of a header below it
moves behind the other entries. -/
def openTable? (path : List String) (key : String) : Tree → Option Tree :=
  alter? false inner path
where
  inner : Tree → Option Tree
    | table origin entries => (start (entries.lookup key)).map fun t =>
      table origin ((entries.filter fun e => e.1 != key) ++ [(key, t)])
    | _ => none
  /-- The table with its own header. -/
  start : Option Tree → Option Tree
    | none => some (table .written [])
    | some (table .header entries) => some (table .written entries)
    | some _ => none

/-- Starts the next item of the list of tables at the path of a header. -/
def openItem? (path : List String) (key : String) : Tree → Option Tree :=
  alter? false inner path
where
  inner : Tree → Option Tree
    | table origin entries => (alterFirst? key start entries).map (table origin)
    | _ => none
  /-- The list with one more item. -/
  start : Option Tree → Option Tree
    | none => some (tables (table .written []) [])
    | some (tables last earlier) => some (tables (table .written []) (last :: earlier))
    | some _ => none

mutual

/-- The value that the tree stands for. -/
def toValue : Tree → Value
  | leaf v => v
  | table _ entries => .table (entryValues entries)
  | tables last earlier => .array ((last.toValue :: itemValues earlier).reverse)

/-- The values of several entries. -/
def entryValues : List (String × Tree) → List (String × Value)
  | [] => []
  | (key, t) :: es => (key, t.toValue) :: entryValues es

/-- The values of several items. -/
def itemValues : List Tree → List Value
  | [] => []
  | t :: ts => t.toValue :: itemValues ts

end

end Tree

end ClassForge.Toml
