import ClassForge.Code.Fragment
import ClassForge.Release
import ClassForge.TypeDecl

/-!
# Class files

A class file lists what is written of a type: its header, its fields and its methods, in order.
Types are kept as they were declared, so a listing shows them with their arguments; only
descriptors erase them. Nothing is encoded in bytes.
-/

namespace ClassForge

/-- A method as it is written. -/
structure WrittenMethod where
  name : String
  modifiers : Modifiers
  returnType : TypeRef
  parameterTypes : List TypeRef
  exceptions : List TypeRef
  annotations : List Annotation := []
  /-- The default of an annotation element. -/
  defaultValue : Option AnnotationValue := none
  /-- Absent from abstract methods. -/
  code : Option Code := none
deriving DecidableEq, Inhabited

namespace WrittenMethod

/-- The method with the given flags, without annotations or code. -/
def of (m : Method) (modifiers : Modifiers) : WrittenMethod :=
  { name := m.name, modifiers, returnType := m.returnType, parameterTypes := m.parameterTypes
    exceptions := m.exceptions }

/-- The text of the erased types. -/
def descriptor (m : WrittenMethod) : String :=
  MethodType.descriptor ⟨m.returnType, m.parameterTypes⟩

@[simp] theorem name_of (m : Method) (modifiers : Modifiers) : (of m modifiers).name = m.name := rfl

@[simp] theorem descriptor_of (m : Method) (modifiers : Modifiers) :
    (of m modifiers).descriptor = m.descriptor := by
  simp [of, descriptor, MethodType.descriptor, Method.descriptor, MethodToken.parameterTypes,
    Function.comp_def]

end WrittenMethod

/-- A field as it is written. -/
structure WrittenField where
  name : String
  modifiers : Modifiers
  type : TypeRef
  annotations : List Annotation := []
  /-- The constant that the field starts with. -/
  constant : Option AnnotationValue := none
deriving DecidableEq, Inhabited

/-- The field as it is declared. -/
def WrittenField.of (f : Field) : WrittenField :=
  { name := f.name, modifiers := f.modifiers, type := f.type, annotations := f.annotations }

/-- A type as it is written. -/
structure ClassFile where
  name : String
  modifiers : Modifiers
  superclass : Option TypeRef
  interfaces : List TypeRef
  release : Release
  fields : List WrittenField := []
  methods : List WrittenMethod := []
deriving DecidableEq, Inhabited

namespace ClassFile

/-- The class file of a type without members. -/
def header (t : TypeDecl) (release : Release) : ClassFile :=
  { name := t.name, modifiers := t.modifiers, superclass := t.superclass
    interfaces := t.interfaces, release }

/-- The methods of a name, bridges among them. -/
def methodsNamed (c : ClassFile) (name : String) : List WrittenMethod :=
  c.methods.filter (·.name = name)

/-- The first method of a name. -/
def method? (c : ClassFile) (name : String) : Option WrittenMethod :=
  c.methods.find? (·.name = name)

/-- The first field of a name. -/
def field? (c : ClassFile) (name : String) : Option WrittenField :=
  c.fields.find? (·.name = name)

end ClassFile

end ClassForge
