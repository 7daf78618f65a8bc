import ClassForge.BuildConfig
import ClassForge.BuiltType

/-!
# Plans

A plan describes the types that a class builds on, and the class itself. It is what somebody wrote
down: types are given by their names and flags by their keywords, and nothing has been looked up
yet. A part of a plan is an *outline*; what it stands for is worked out when the plan is carried
out.

## Main definitions

* `TypeOutline`, `FieldOutline`, `ConstructorOutline`, `MethodOutline` — declarations
* `ImplementationOutline`, `Literal` — what methods do
* `ClassOutline`, `Interception` — the class to build
* `Plan` — all of it
-/

namespace ClassForge

/-- A value in a plan. -/
inductive Literal where
  | boolean (value : Bool)
  | integer (value : Int)
  | text (value : String)
deriving DecidableEq, Inhabited

/-- What a method does. -/
inductive ImplementationOutline where
  | stub
  /-- Returns the value, or `null` without one. -/
  | fixed (value : Option Literal)
  | callSuper
  | throwNew (exception : String) (message : Option String)
  /-- With `define`, the field is added with that type. -/
  | accessField (name : String) (define : Option String)
  | callHelper (name returns : String) (value : Literal)
  | sequence (parts : List ImplementationOutline)
deriving Inhabited

/-- The flags of what is declared without any. -/
def defaultKeywords : List String := ["public"]

structure FieldOutline where
  name : String
  type : String
  keywords : List String := defaultKeywords
  /-- The constant that the field starts with. -/
  value : Option Literal := none
  /-- The types of annotations without elements. -/
  annotations : List String := []
deriving DecidableEq, Inhabited

structure ConstructorOutline where
  keywords : List String := defaultKeywords
  parameters : List String := []
deriving DecidableEq, Inhabited

structure MethodOutline where
  name : String
  returns : String := "void"
  parameters : List String := []
  keywords : List String := defaultKeywords
  exceptions : List String := []
  implementation : Option ImplementationOutline := none
  /-- The default of an annotation element. -/
  value : Option Literal := none
deriving Inhabited

/-- A type that the class builds on. -/
structure TypeOutline where
  name : String
  keywords : List String := defaultKeywords
  isInterface : Bool := false
  /-- The root class if absent. Interfaces have none. -/
  superclass : Option String := none
  interfaces : List String := []
  typeVariables : List String := []
  fields : List FieldOutline := []
  constructors : List ConstructorOutline := []
  methods : List MethodOutline := []
deriving Inhabited

/-- An implementation for inherited methods. A method has to meet all conditions that are given. -/
structure Interception where
  name : Option String := none
  /-- What the name starts with. -/
  start : Option String := none
  owner : Option String := none
  arity : Option Nat := none
  implementation : ImplementationOutline
deriving Inhabited

/-- The class to build. -/
structure ClassOutline where
  name : String
  superclass : String := BinaryName.object
  interfaces : List String := []
  keywords : List String := defaultKeywords
  activation : Activation := .passive
  fields : List FieldOutline := []
  methods : List MethodOutline := []
  /-- Later ones take precedence. -/
  interceptions : List Interception := []
  /-- The names of inherited methods that are never claimed. -/
  ignored : List String := []
deriving Inhabited

/-- A class, with the types that it builds on and the settings to build it with. -/
structure Plan where
  config : BuildConfig := {}
  types : List TypeOutline := []
  target : ClassOutline
deriving Inhabited

end ClassForge
