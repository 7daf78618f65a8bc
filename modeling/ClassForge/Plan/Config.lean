import ClassForge.BuildConfig
import ClassForge.Toml.DateTable
import ClassForge.Toml.Decode
import ClassForge.Toml.Parser

/-!
# Settings in a file

The settings of a build are the entry `build` of a settings file; all other entries are for others.
But all of them have to stand for something, as far as tables that stand for dates are concerned.
Of several mistakes the first counts, where the entries of a table are taken in the order of their
keys.
-/

namespace ClassForge

open Toml

/-- Why settings cannot be read. -/
inductive ConfigError where
  /-- The text breaks a rule of its format, or the settings have the wrong form. -/
  | malformed
  | release (cause : UnsupportedRelease)
deriving DecidableEq

/-- The error in words. -/
def ConfigError.message : ConfigError → String
  | malformed => "invalid build configuration"
  | release cause => "invalid build configuration: " ++ cause.message

namespace BuildConfig

/-- The names of the settings, in their order. -/
def names : List String :=
  ["class-file-version", "type-validation", "method-graph", "constructor-strategy",
    "auxiliary-suffix", "rebase-suffix"]

/-- A release, given by its number. -/
def asRelease (v : Value) : Decode Release := do
  let n ← v.asNat
  if n < UInt16.size then (Release.ofNumber n).mapError .release else .error .mismatch

/-- A word in a name. A date or a time is taken as it is spelled. -/
def asWord : Value → Decode String
  | .dateTime spelling => .ok spelling
  | v => v.asText

/-- The settings with one of them changed. -/
def set (c : BuildConfig) (e : String × Value) : Decode BuildConfig :=
  match e.1 with
  | "class-file-version" => do return { c with release := ← asRelease e.2 }
  | "type-validation" => do return { c with validate := ← e.2.asBool }
  | "method-graph" => do return { c with scope := ← e.2.asChoice GraphScope.keywords }
  | "constructor-strategy" => do
    return { c with constructors := ← e.2.asChoice ConstructorStrategy.keywords }
  | "auxiliary-suffix" => do return { c with auxiliarySuffix := ← asWord e.2 }
  | "rebase-suffix" => do return { c with relocationSuffix := ← asWord e.2 }
  | _ => .error .mismatch

/-- The settings that a value stands for. -/
def decode : Value → Decode BuildConfig
  | .table entries => (entries.mergeSort fun a b => a.1 ≤ b.1).foldlM set {}
  | .array items => do
    let c ← (names.zip items).foldlM set {}
    if items.length ≤ names.length then return c else .error .mismatch
  | _ => .error .mismatch

/-- The settings of a document; a document without them has the defaults. -/
def ofDocument (entries : List (String × Value)) : Except ConfigError BuildConfig :=
  match Value.entriesWithDates? entries with
  | none => .error .malformed
  | some entries =>
    match lookup? "build" entries with
    | none => .ok {}
    | some v =>
      match decode v with
      | .ok c => .ok c
      | .error .mismatch => .error .malformed
      | .error (.release cause) => .error (.release cause)

/-- The settings in a text. -/
def ofText (text : String) : Except ConfigError BuildConfig :=
  match parse? text with
  | some (.table entries) => ofDocument entries
  | _ => .error .malformed

end BuildConfig

end ClassForge
