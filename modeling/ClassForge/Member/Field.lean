import ClassForge.Annotation
import ClassForge.Modifiers

/-!
# Fields

A field is known by its owner and its name. Detached from the owner it is a token, which can be
attached to any type: references to the owner in the field's type become references to the new
one.

Two tokens with the same name and type describe the same field, whatever their flags and
annotations.
-/

namespace ClassForge

/-- A field without an owner. -/
structure FieldToken where
  name : String
  modifiers : Modifiers
  type : TypeRef
  annotations : List Annotation := []
deriving DecidableEq, Inhabited

/-- A field declared on a type. -/
structure Field extends FieldToken where
  owner : String
deriving DecidableEq, Inhabited

/-- What makes two declared fields the same field. -/
structure FieldIdentity where
  owner : String
  name : String
deriving DecidableEq, Inhabited

namespace FieldToken

/-- The field that the token describes on a type. -/
def attach (t : FieldToken) (owner : String) : Field :=
  { t with owner, type := t.type.attach owner }

/-- What makes two tokens the same: name and type. -/
def key (t : FieldToken) : String × TypeRef := (t.name, t.type)

end FieldToken

namespace Field

def identity (f : Field) : FieldIdentity := ⟨f.owner, f.name⟩

def isStatic (f : Field) : Bool := f.modifiers.has .accStatic

def isFinal (f : Field) : Bool := f.modifiers.has .accFinal

/-- The field without its owner. -/
def detach (f : Field) : FieldToken := { f.toFieldToken with type := f.type.detach f.owner }

/-- The name and the erased type. -/
def signature (f : Field) : String × TypeRef := (f.name, f.type.erasure)

/-- The field as it is declared in source code, under its full name. -/
def display (f : Field) : String :=
  f.modifiers.leadingKeywords ++ f.type.display ++ " " ++ f.owner ++ "." ++ f.name

instance : ToString Field := ⟨display⟩

end Field

end ClassForge
