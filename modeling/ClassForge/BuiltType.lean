import ClassForge.ClassFile.Listing
import ClassForge.FieldRegistry
import ClassForge.Registry.Compile

/-!
# Built types

The outcome of a build is a class file with what belongs to it: the declaration that it was made
from, what happens when the type is loaded, and further types that have to be written with it.

Fields are written first, in the order of their declaration, then the bound methods in the order in
which they were bound, and the type initializer last.

## Main definitions

* `BuiltType` — a written type with all that belongs to it
* `TypeInitializer.drain` — the type initializer written into a class file
* `Draft.write` — the built type of a draft whose members have been planned
-/

namespace ClassForge

/-- When the load action of a type is carried out. -/
inductive Activation where
  /-- Not by the build; whoever loads the type sees to it. -/
  | passive
  /-- As soon as the type is there. -/
  | active
deriving DecidableEq, Inhabited

/-- A written type with all that belongs to it. -/
structure BuiltType where
  decl : TypeDecl
  classFile : ClassFile
  /-- The types that are written with this one. -/
  auxiliary : List BuiltType := []
  loaded : LoadAction := .nothing
  activation : Activation := .passive

namespace BuiltType

/-- A type of which only the header and the fields are written. -/
def bare (t : TypeDecl) (release : Release) : BuiltType :=
  { decl := t, classFile := { ClassFile.header t release with fields := t.fields.map .of } }

instance : Inhabited BuiltType := ⟨bare default default⟩

mutual

/-- The type and the types written with it, each followed by its own. -/
def all : BuiltType → List BuiltType
  | ⟨decl, classFile, auxiliary, loaded, activation⟩ =>
    ⟨decl, classFile, auxiliary, loaded, activation⟩ :: allOf auxiliary

/-- The types of a list, each followed by those written with it. -/
def allOf : List BuiltType → List BuiltType
  | [] => []
  | t :: ts => t.all ++ allOf ts

end

/-- The listings of the type and of all types written with it. -/
def listing (t : BuiltType) : String :=
  String.intercalate "\n" (t.all.map (·.classFile.listing))

/-- The assignments that the build itself sees to. -/
def assignments (t : BuiltType) : List (String × AnnotationValue) :=
  match t.activation with
  | .passive => []
  | .active => t.loaded.assignments

end BuiltType

/-- The written type initializer of the type `owner`: the collected code in front of whatever is
planned for it. -/
def TypeInitializer.write (i : TypeInitializer) (owner : String) (plan : Method → MethodRecord) :
    Build (List WrittenMethod) := do
  (← i.wrap (plan (.typeInitializer owner))).apply

/-- Writes the type initializer of the type `owner` into a class file. -/
def TypeInitializer.drain (i : TypeInitializer) (owner : String) (plan : Method → MethodRecord) :
    ExceptT BuildError (StateM ClassFile) Unit := do
  let written ← liftExcept (i.write owner plan)
  modify fun file => { file with methods := file.methods ++ written }

/-- The built type of a draft with plans for its members. -/
def Draft.write (d : Draft) (release : Release) (fields : FieldRecords)
    (plan : Method → MethodRecord) (methods : List Method) (auxiliary : List BuiltType)
    (activation : Activation) : Build BuiltType := do
  let written ← methods.mapM fun m => (plan m).apply
  let initializer ← d.initializer.write d.decl.name plan
  return {
    decl := d.decl
    classFile := { ClassFile.header d.decl release with
      fields := d.decl.fields.map fun f => (fields.record f).apply
      methods := written.flatten ++ initializer }
    auxiliary
    loaded := d.loaded
    activation }

end ClassForge
