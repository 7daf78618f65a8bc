import ClassForge.Release
import ClassForge.Toml.Value

/-!
# From values to records

A record is read from a table with an entry for each field, or from an array with the values of the
fields in their order. A table may leave out fields that have a default and may not have entries for
anything else. An array may end early, where all further fields have a default.

A choice is written by its word, or as a table whose only key is the word and whose value is empty.

## Main definitions

* `Decode` — reading from a value
* `Record.of`, `Record.required`, `Record.optional`, `Record.withDefault` — records and their fields
-/

namespace ClassForge.Toml

/-- Why a value cannot be read. -/
inductive DecodeError where
  /-- It does not have the form that is asked for. -/
  | mismatch
  | release (cause : UnsupportedRelease)
deriving DecidableEq

/-- The outcome of reading from a value. -/
abbrev Decode := Except DecodeError

namespace Value

/-- A text. -/
def asText : Value → Decode String
  | text s => .ok s
  | _ => .error .mismatch

/-- A truth value. -/
def asBool : Value → Decode Bool
  | boolean b => .ok b
  | _ => .error .mismatch

/-- A number of things. -/
def asNat : Value → Decode Nat
  | integer n => if 0 ≤ n then .ok n.toNat else .error .mismatch
  | _ => .error .mismatch

/-- An array. -/
def asList : Value → Decode (List Value)
  | array vs => .ok vs
  | _ => .error .mismatch

/-- A table. -/
def asTable : Value → Decode (List (String × Value))
  | table entries => .ok entries
  | _ => .error .mismatch

/-- An array of values that are read in the same way. -/
def asListOf {α : Type} (decode : Value → Decode α) (v : Value) : Decode (List α) := do
  (← v.asList).mapM decode

/-- An array of texts. -/
def asTexts : Value → Decode (List String) := asListOf asText

/-- Whether the value is an array or a table without anything in it. -/
def isEmpty : Value → Bool
  | array [] | table [] => true
  | _ => false

/-- One of several choices. -/
def asChoice {α : Type} (words : List (String × α)) : Value → Decode α
  | text s => choose s
  | table [(s, v)] => if v.isEmpty then choose s else .error .mismatch
  | _ => .error .mismatch
where
  choose (s : String) : Decode α :=
    match words.lookup s with
    | some x => .ok x
    | none => .error .mismatch

end Value

/-- The values of the fields of a record. -/
structure Record where
  /-- The value of a field, if there is one. -/
  get? : String → Option Value
  /-- Whether the fields were given by their places. -/
  isPositional : Bool

namespace Record

/-- The value, which has to be there. -/
def orMismatch {α : Type} : Option α → Decode α
  | some x => .ok x
  | none => .error .mismatch

/-- The fields in the entries of a table. -/
def ofEntries (entries : List (String × Value)) : Record := ⟨(lookup? · entries), false⟩

/-- The fields in the items of an array. -/
def ofItems (names : List String) (items : List Value) : Record :=
  ⟨(lookup? · (names.zip items)), true⟩

/-- The record with the given field names that a value stands for. -/
def of (names : List String) : Value → Decode Record
  | .table entries =>
    if entries.all fun e => names.contains e.1 then .ok (ofEntries entries)
    else .error .mismatch
  | .array items => .ok (ofItems names items)
  | _ => .error .mismatch

/-- A field that has to be there. -/
def required {α : Type} (r : Record) (name : String) (decode : Value → Decode α) : Decode α :=
  match r.get? name with
  | some v => decode v
  | none => .error .mismatch

/-- A field that may be left out. -/
def withDefault {α : Type} (r : Record) (name : String) (decode : Value → Decode α)
    (default : α) : Decode α :=
  match r.get? name with
  | some v => decode v
  | none => .ok default

/-- A field that a table may leave out. Fields given by their places cannot do without it. -/
def optional {α : Type} (r : Record) (name : String) (decode : Value → Decode α) :
    Decode (Option α) :=
  match r.get? name with
  | some v => some <$> decode v
  | none => if r.isPositional then .error .mismatch else .ok none

end Record

end ClassForge.Toml
