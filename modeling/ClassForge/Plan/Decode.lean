import ClassForge.Plan.Config
import ClassForge.Plan.Outline

/-!
# Plans in files

A plan is a document with the settings in `build`, the types in `types` and the class in
`subclass`. Each of its tables may leave out the fields that have a default, and an entry for
anything else is an error. Tables that describe an implementation are laxer: the entry `kind` says
which further fields they need, and all other entries are ignored.

Whatever is wrong with a document, a mistake in its settings counts first.

## Main definitions

* `ImplementationOutline.ofValue` — implementations
* `Plan.ofText` — whole plans
-/

namespace ClassForge

open Toml

/-- Why a document is no plan. -/
inductive PlanSyntaxError where
  | config (cause : ConfigError)
  /-- The settings are in order, but something else is not. -/
  | malformed
deriving DecidableEq

namespace Literal

/-- The literal that a value stands for. Fractions and dates have none. -/
def ofValue : Value → Decode Literal
  | .boolean b => .ok (boolean b)
  | .integer n => .ok (integer n)
  | .text s => .ok (text s)
  | _ => .error .mismatch

end Literal

namespace ImplementationOutline

/-- The names of the further fields for each kind. -/
def fieldNames : List (String × List String) :=
  [("stub", []), ("fixed", ["value"]), ("super", []), ("throw", ["exception", "message"]),
    ("field", ["name", "define"]), ("helper", ["name", "returns", "value"]),
    ("sequence", ["parts"])]

/-- The implementation of a kind with its fields, where `parts` is what the field of that name
has been read as. -/
def ofKind (kind : String) (r : Record) (parts : Decode (List ImplementationOutline)) :
    Decode ImplementationOutline :=
  match kind with
  | "stub" => .ok stub
  | "super" => .ok callSuper
  | "fixed" => fixed <$> r.withDefault "value" (some <$> Literal.ofValue ·) none
  | "throw" => do
    return throwNew (← r.required "exception" Value.asText)
      (← r.withDefault "message" (some <$> Value.asText ·) none)
  | "field" => do
    return accessField (← r.required "name" Value.asText)
      (← r.withDefault "define" (some <$> Value.asText ·) none)
  | "helper" => do
    return callHelper (← r.required "name" Value.asText) (← r.required "returns" Value.asText)
      (← r.required "value" Literal.ofValue)
  | "sequence" => sequence <$> parts
  | _ => .error .mismatch

/-- The fields in an array whose first item is the kind. -/
def positional (kind : String) (items : List Value) : Decode Record := do
  let names ← Record.orMismatch (fieldNames.lookup kind)
  if items.length ≤ names.length then return .ofItems names items else .error .mismatch

mutual

/-- The implementation that a value stands for. -/
def ofValue : Value → Decode ImplementationOutline
  | .table entries => do
    let r := Record.ofEntries entries
    ofKind (← r.required "kind" Value.asText) r (partsAmong entries)
  | .array items => do
    let kind ← (← Record.orMismatch items.head?).asText
    ofKind kind (← positional kind items.tail) (partsSecond items)
  | _ => .error .mismatch

/-- The implementations in an array. -/
def partsOf : Value → Decode (List ImplementationOutline)
  | .array items => ofValues items
  | _ => .error .mismatch

/-- The implementations that some values stand for. -/
def ofValues : List Value → Decode (List ImplementationOutline)
  | [] => .ok []
  | v :: vs => do return (← ofValue v) :: (← ofValues vs)

/-- The implementations in the entry `parts`. -/
def partsAmong : List (String × Value) → Decode (List ImplementationOutline)
  | [] => .error .mismatch
  | (key, v) :: entries => if key = "parts" then partsOf v else partsAmong entries

/-- The implementations in the second item. -/
def partsSecond : List Value → Decode (List ImplementationOutline)
  | _ :: v :: _ => partsOf v
  | _ => .error .mismatch

end

end ImplementationOutline

namespace FieldOutline

def ofValue (v : Value) : Decode FieldOutline := do
  let r ← Record.of ["name", "type", "modifiers", "value", "annotations"] v
  return {
    name := ← r.required "name" Value.asText
    type := ← r.required "type" Value.asText
    keywords := ← r.withDefault "modifiers" Value.asTexts defaultKeywords
    value := ← r.optional "value" Literal.ofValue
    annotations := ← r.withDefault "annotations" Value.asTexts [] }

end FieldOutline

namespace ConstructorOutline

def ofValue (v : Value) : Decode ConstructorOutline := do
  let r ← Record.of ["modifiers", "parameters"] v
  return {
    keywords := ← r.withDefault "modifiers" Value.asTexts defaultKeywords
    parameters := ← r.withDefault "parameters" Value.asTexts [] }

end ConstructorOutline

namespace MethodOutline

def ofValue (v : Value) : Decode MethodOutline := do
  let r ← Record.of
    ["name", "returns", "parameters", "modifiers", "exceptions", "implementation", "default"] v
  return {
    name := ← r.required "name" Value.asText
    returns := ← r.withDefault "returns" Value.asText "void"
    parameters := ← r.withDefault "parameters" Value.asTexts []
    keywords := ← r.withDefault "modifiers" Value.asTexts defaultKeywords
    exceptions := ← r.withDefault "exceptions" Value.asTexts []
    implementation := ← r.optional "implementation" ImplementationOutline.ofValue
    value := ← r.optional "default" Literal.ofValue }

end MethodOutline

namespace TypeOutline

def ofValue (v : Value) : Decode TypeOutline := do
  let r ← Record.of
    ["name", "modifiers", "interface", "superclass", "interfaces", "type-variables", "fields",
      "constructors", "methods"] v
  return {
    name := ← r.required "name" Value.asText
    keywords := ← r.withDefault "modifiers" Value.asTexts defaultKeywords
    isInterface := ← r.withDefault "interface" Value.asBool false
    superclass := ← r.optional "superclass" Value.asText
    interfaces := ← r.withDefault "interfaces" Value.asTexts []
    typeVariables := ← r.withDefault "type-variables" Value.asTexts []
    fields := ← r.withDefault "fields" (Value.asListOf FieldOutline.ofValue) []
    constructors := ← r.withDefault "constructors" (Value.asListOf ConstructorOutline.ofValue) []
    methods := ← r.withDefault "methods" (Value.asListOf MethodOutline.ofValue) [] }

end TypeOutline

namespace Interception

def ofValue (v : Value) : Decode Interception := do
  let r ← Record.of ["name", "name-prefix", "declared-by", "arguments", "implementation"] v
  return {
    name := ← r.optional "name" Value.asText
    start := ← r.optional "name-prefix" Value.asText
    owner := ← r.optional "declared-by" Value.asText
    arity := ← r.optional "arguments" Value.asNat
    implementation := ← r.required "implementation" ImplementationOutline.ofValue }

end Interception

/-- The words for the activations. -/
def Activation.keywords : List (String × Activation) :=
  [("passive", .passive), ("active", .active)]

namespace ClassOutline

def ofValue (v : Value) : Decode ClassOutline := do
  let r ← Record.of
    ["name", "superclass", "interfaces", "modifiers", "resolution", "fields", "methods",
      "intercept", "ignore"] v
  return {
    name := ← r.required "name" Value.asText
    superclass := ← r.withDefault "superclass" Value.asText BinaryName.object
    interfaces := ← r.withDefault "interfaces" Value.asTexts []
    keywords := ← r.withDefault "modifiers" Value.asTexts defaultKeywords
    activation := ← r.withDefault "resolution" (Value.asChoice Activation.keywords) .passive
    fields := ← r.withDefault "fields" (Value.asListOf FieldOutline.ofValue) []
    methods := ← r.withDefault "methods" (Value.asListOf MethodOutline.ofValue) []
    interceptions := ← r.withDefault "intercept" (Value.asListOf Interception.ofValue) []
    ignored := ← r.withDefault "ignore" Value.asTexts [] }

end ClassOutline

namespace Plan

/-- The plan in a document with the given settings, which have to be a table here. -/
def ofEntries (config : BuildConfig) (entries : List (String × Value)) : Decode Plan := do
  let r ← Record.of ["build", "types", "subclass"] (.table entries)
  discard (r.optional "build" Value.asTable)
  return {
    config
    types := ← r.withDefault "types" (Value.asListOf TypeOutline.ofValue) []
    target := ← r.required "subclass" ClassOutline.ofValue }

/-- The plan in a text. -/
def ofText (text : String) : Except PlanSyntaxError Plan :=
  match Toml.parse? text with
  | some (.table entries) => do
    let config ← (BuildConfig.ofDocument entries).mapError .config
    (ofEntries config entries).mapError fun _ => .malformed
  | _ => .error (.config .malformed)

end Plan

end ClassForge
