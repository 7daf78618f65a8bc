import ClassForge.Member.Field

/-!
# Predicates on fields

Field rules choose their fields by name, by erased type and by whether the field is static.
-/

namespace ClassForge

/-- A predicate on fields. -/
inductive FieldMatcher where
  | always
  | named (name : String)
  /-- Has this type, up to erasure. -/
  | ofType (type : TypeRef)
  | isStatic
  | all (matchers : List FieldMatcher)
  | not (matcher : FieldMatcher)
deriving Inhabited

namespace FieldMatcher

mutual

/-- Whether the predicate holds of a field. -/
def accepts (f : Field) : FieldMatcher → Bool
  | always => true
  | named name => f.name = name
  | ofType type => f.type.erasure = type.erasure
  | isStatic => f.isStatic
  | all ms => allAccept f ms
  | not m => !m.accepts f

/-- Whether every predicate of a list holds. -/
def allAccept (f : Field) : List FieldMatcher → Bool
  | [] => true
  | m :: ms => m.accepts f && allAccept f ms

end

theorem allAccept_eq_all (f : Field) (ms : List FieldMatcher) :
    allAccept f ms = ms.all (·.accepts f) := by
  induction ms with
  | nil => rfl
  | cons m ms ih => simp [allAccept, ih]

end FieldMatcher

end ClassForge
