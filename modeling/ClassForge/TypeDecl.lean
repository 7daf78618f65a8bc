import ClassForge.Member.Field
import ClassForge.Member.Method

/-!
# Type declarations

A declaration of a class or an interface with its supertypes and the members it declares itself.
Supertypes are references, so they may be parameterized; `bindings` reads off what the type's own
variables stand for where it is referred to.
-/

namespace ClassForge

/-- A class or interface with its declared members. -/
structure TypeDecl where
  /-- The binary name. -/
  name : String
  modifiers : Modifiers
  /-- The superclass; an interface and the root class have none. -/
  superclass : Option TypeRef := some .object
  interfaces : List TypeRef := []
  typeVariables : List TypeVariable := []
  fields : List Field := []
  methods : List Method := []
deriving DecidableEq, Inhabited

namespace TypeDecl

/-- The package that the type lies in. -/
def package (t : TypeDecl) : String := BinaryName.package t.name

/-- The name of the superclass, if there is one and it is a class. -/
def superName? (t : TypeDecl) : Option String := t.superclass.bind TypeRef.rawName?

/-- A reference to the type without type arguments. -/
def reference (t : TypeDecl) : TypeRef := .named t.name

def isInterface (t : TypeDecl) : Bool := t.modifiers.has .accInterface

def isAnnotationType (t : TypeDecl) : Bool := t.modifiers.has .accAnnotationType

def isAbstract (t : TypeDecl) : Bool := t.modifiers.has .accAbstract

def isFinal (t : TypeDecl) : Bool := t.modifiers.has .accFinal

def isPublic (t : TypeDecl) : Bool := t.modifiers.has .accPublic

def isPackagePrivate (t : TypeDecl) : Bool := t.modifiers.visibility = .pkg

/-- Whether both types lie in one package. -/
def samePackage (t u : TypeDecl) : Bool := t.package = u.package

/-- Whether code in `accessor` may name the type. -/
def isVisibleTo (t accessor : TypeDecl) : Bool :=
  t.isPublic || t.name = accessor.name || t.samePackage accessor

/-- What the type's variables stand for in a reference to it. A reference without type arguments
leaves them unbound, and missing or surplus arguments do not count. -/
def bindings (t : TypeDecl) : TypeRef → Bindings
  | .parameterized _ arguments => .ofList ((t.typeVariables.map (·.symbol)).zip arguments)
  | _ => .empty

end TypeDecl

end ClassForge
