import ClassForge.BuildError
import ClassForge.ClassFile.Basic
import ClassForge.Matcher.Field
import ClassForge.ModifierChange

/-!
# Rules for fields

A field rule adds annotations to the declared fields that it matches, changes their flags, and may
give them a constant. The rule added last is tried first. A constant is accepted only for a field
that is static, after the change of its flags, and whose type it fits. A field that no rule matches
is written as it is declared.

## Main definitions

* `FieldRule`, `FieldRegistry` — the rules, first match first
* `FieldRegistry.prepare` — the plans for the declared fields of a type
* `FieldRecord.apply` — the written field
-/

namespace ClassForge

/-- What is done to the fields that a matcher accepts. -/
structure FieldRule where
  matcher : FieldMatcher
  annotations : List Annotation := []
  constant : Option AnnotationValue := none
  changes : List ModifierChange := []
deriving Inhabited

/-- Field rules in the order in which they are tried. -/
structure FieldRegistry where
  rules : List FieldRule := []
deriving Inhabited

/-- The plan for one field. -/
structure FieldRecord where
  field : Field
  /-- Annotations besides those that the field declares. -/
  annotations : List Annotation := []
  constant : Option AnnotationValue := none
  /-- Whether no rule matched. -/
  isImplicit : Bool := true
deriving DecidableEq, Inhabited

/-- The written field. -/
def FieldRecord.apply (r : FieldRecord) : WrittenField :=
  { WrittenField.of r.field with
    annotations := Annotation.merge r.field.annotations r.annotations, constant := r.constant }

/-- The plans for the fields that rules matched. -/
abbrev FieldRecords := OrderedMap FieldIdentity FieldRecord

/-- The plan for a field. -/
def FieldRecords.record (rs : FieldRecords) (f : Field) : FieldRecord :=
  (rs.get? f.identity).getD { field := f }

namespace FieldRule

/-- Why the rule cannot give its constant to the field, which has been changed already. -/
def constantFault? (r : FieldRule) (f : Field) : Option Refusal :=
  match r.constant with
  | none => none
  | some value =>
    if !f.isStatic then some (.constantOfInstanceField f)
    else if !value.fits f.type then some (.wrongConstant value f)
    else none

/-- The plan for a field that the rule matches. -/
def record (r : FieldRule) (f : Field) : Build FieldRecord :=
  let changed := f.change r.changes
  match r.constantFault? changed with
  | some fault => .error (.refusal fault)
  | none =>
    .ok { field := changed, annotations := r.annotations, constant := r.constant
          isImplicit := false }

end FieldRule

namespace FieldRegistry

/-- The registry with a rule tried before all others. -/
def prepend (r : FieldRegistry) (rule : FieldRule) : FieldRegistry := ⟨rule :: r.rules⟩

/-- The number of rules. -/
def size (r : FieldRegistry) : Nat := r.rules.length

/-- The first rule that matches a field. -/
def ruleFor? (r : FieldRegistry) (f : Field) : Option FieldRule :=
  r.rules.find? (·.matcher.accepts f)

/-- The plans with that for one more field. -/
def bind (r : FieldRegistry) (rs : FieldRecords) (f : Field) : Build FieldRecords :=
  match r.ruleFor? f with
  | none => .ok rs
  | some rule => do return rs.insert f.identity (← rule.record f)

/-- The plans for the fields that a type declares. -/
def prepare (r : FieldRegistry) (t : TypeDecl) : Build FieldRecords :=
  t.fields.foldlM r.bind .empty

end FieldRegistry

end ClassForge
