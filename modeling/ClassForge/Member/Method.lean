import ClassForge.Annotation
import ClassForge.Modifiers

/-!
# Methods

Methods, constructors and the type initializer are held as they are declared, with type variables
unresolved. What the virtual machine sees of a method is its erased *signature*; together with the
owner it makes up the *identity*. Flags, annotations and parameter names play no part in it, so
two declarations that differ only there are the same method.

A method detached from its owner is a token. Tokens are compared by name and by return and
parameter types as they are written, not erased.

## Main definitions

* `MethodType`, `Signature`, `MethodIdentity` — return and parameter types; with a name; with an
  owner
* `MethodToken`, `Method` — a declaration without and with its owner
* `MethodToken.attach`, `Method.detach` — from one to the other
* `Method.inShape` — the method with type variables of its owner resolved
* `Method.canBridge` — which other signatures may forward to the method
-/

namespace ClassForge

/-! ### Signatures -/

/-- Return and parameter types. -/
structure MethodType where
  returnType : TypeRef
  parameterTypes : List TypeRef
deriving DecidableEq, Inhabited

/-- A name with return and parameter types. -/
structure Signature extends MethodType where
  name : String
deriving DecidableEq, Inhabited

/-- What makes two declared methods the same method: the owner and the erased signature. -/
structure MethodIdentity extends Signature where
  owner : String
deriving DecidableEq, Inhabited

/-- The text of the erased types in a class file. -/
def MethodType.descriptor (t : MethodType) : String :=
  "(" ++ String.join (t.parameterTypes.map TypeRef.descriptor) ++ ")" ++ t.returnType.descriptor

/-- The signature as it is written in source code. -/
def Signature.display (s : Signature) : String :=
  s.returnType.display ++ " " ++ s.name ++ "(" ++ TypeRef.displayAll s.parameterTypes ++ ")"

instance : ToString Signature := ⟨Signature.display⟩

/-! ### Declarations -/

/-- A formal parameter. -/
structure Parameter where
  type : TypeRef
  /-- The declared name, if it is known. -/
  name : Option String := none
  modifiers : Modifiers := .empty
deriving DecidableEq, Inhabited

/-- A method without an owner. -/
structure MethodToken where
  name : String
  modifiers : Modifiers
  returnType : TypeRef := .void
  parameters : List Parameter := []
  exceptions : List TypeRef := []
  typeVariables : List TypeVariable := []
  annotations : List Annotation := []
  /-- The default of an annotation element. -/
  defaultValue : Option AnnotationValue := none
deriving DecidableEq, Inhabited

/-- A method, constructor or type initializer declared on a type. -/
structure Method extends MethodToken where
  owner : String
deriving DecidableEq, Inhabited

/-- The name of every constructor. -/
def constructorName : String := "<init>"

/-- The name of every type initializer. -/
def typeInitializerName : String := "<clinit>"

namespace MethodToken

/-- The parameter types as they are written. -/
def parameterTypes (t : MethodToken) : List TypeRef := t.parameters.map (·.type)

/-- What makes two tokens the same: name, return type and parameter types as they are written. -/
def key (t : MethodToken) : Signature := ⟨⟨t.returnType, t.parameterTypes⟩, t.name⟩

/-- The token with every reference changed by `f`. -/
def mapTypes (t : MethodToken) (f : TypeRef → TypeRef) : MethodToken :=
  { t with
    returnType := f t.returnType
    parameters := t.parameters.map fun p => { p with type := f p.type }
    exceptions := t.exceptions.map f
    typeVariables := t.typeVariables.map fun v => { v with bound := f v.bound } }

/-- The method that the token describes on a type. -/
def attach (t : MethodToken) (owner : String) : Method :=
  { t.mapTypes (·.attach owner) with owner }

/-- A constructor with unnamed parameters. -/
def constructor (modifiers : Modifiers) (parameterTypes : List TypeRef) : MethodToken :=
  { name := constructorName, modifiers, parameters := parameterTypes.map ({ type := · }) }

end MethodToken

namespace Method

/-- The type initializer of a type. -/
def typeInitializer (owner : String) : Method :=
  { owner, name := typeInitializerName, modifiers := .of [.accStatic] }

/-- The method without its owner. -/
def detach (m : Method) : MethodToken := m.toMethodToken.mapTypes (·.detach m.owner)

/-- The method with type variables of its owner replaced in return and parameter types. -/
def inShape (m : Method) (bindings : Bindings) : Method :=
  { m with
    returnType := m.returnType.substitute bindings
    parameters := m.parameters.map fun p => { p with type := p.type.substitute bindings } }

/-- The erased parameter types. -/
def erasedParameterTypes (m : Method) : List TypeRef := m.parameters.map (·.type.erasure)

theorem map_erasure_parameterTypes (m : Method) :
    m.parameterTypes.map TypeRef.erasure = m.erasedParameterTypes := by
  simp [MethodToken.parameterTypes, erasedParameterTypes]

/-- The erased return and parameter types. -/
def type (m : Method) : MethodType := ⟨m.returnType.erasure, m.erasedParameterTypes⟩

/-- The name with the erased types. -/
def signature (m : Method) : Signature := ⟨m.type, m.name⟩

/-- The owner with the erased signature. -/
def identity (m : Method) : MethodIdentity := ⟨m.signature, m.owner⟩

/-- The text of the erased types in a class file. -/
def descriptor (m : Method) : String :=
  "(" ++ String.join (m.parameters.map (·.type.descriptor)) ++ ")" ++ m.returnType.descriptor

theorem descriptor_type (m : Method) : m.type.descriptor = m.descriptor := by
  simp [MethodType.descriptor, type, descriptor, erasedParameterTypes, Function.comp_def]

/-! ### Kinds -/

def isConstructor (m : Method) : Bool := m.name = constructorName

def isTypeInitializer (m : Method) : Bool := m.name = typeInitializerName

/-- Whether this is neither a constructor nor a type initializer. -/
def isOrdinary (m : Method) : Bool := !m.isConstructor && !m.isTypeInitializer

def isStatic (m : Method) : Bool := m.modifiers.has .accStatic

def isAbstract (m : Method) : Bool := m.modifiers.has .accAbstract

def isFinal (m : Method) : Bool := m.modifiers.has .accFinal

def isNative (m : Method) : Bool := m.modifiers.has .accNative

def isPublic (m : Method) : Bool := m.modifiers.has .accPublic

def isProtected (m : Method) : Bool := m.modifiers.has .accProtected

def isPrivate (m : Method) : Bool := m.modifiers.has .accPrivate

def isSynthetic (m : Method) : Bool := m.modifiers.has .accSynthetic

def isBridge (m : Method) : Bool := m.modifiers.has .accBridge

def visibility (m : Method) : Visibility := m.modifiers.visibility

/-- Whether calls to the method are dispatched by the class of the receiver. -/
def isVirtual (m : Method) : Bool := m.isOrdinary && !m.isStatic && !m.isPrivate

/-- Whether the value may be the default of the method as an annotation element. -/
def acceptsDefault (m : Method) (v : AnnotationValue) : Bool :=
  m.isOrdinary && !m.isStatic && m.parameters.isEmpty && v.fits m.returnType

/-! ### Local variables -/

/-- The slots that the receiver takes. -/
def receiverSlots (m : Method) : Nat := if m.isStatic then 0 else 1

/-- The slot of the parameter at `index`: after the receiver and the parameters before it. -/
def parameterOffset (m : Method) (index : Nat) : Nat :=
  m.receiverSlots + TypeRef.totalSlots (m.parameterTypes.take index)

/-- The slots that the receiver and all parameters take. They are counted in full, and
`Method.FitsFrame` says when 16 bits hold them. -/
def frameSize (m : Method) : Nat := m.receiverSlots + TypeRef.totalSlots m.parameterTypes

/-! ### Bridges -/

/-- Whether a value may pass from one erased type to the other by a cast or unchanged: two
references always, anything else only unchanged. -/
def passes (a b : TypeRef) : Bool :=
  a = b || (!(a.isPrimitive || a.isVoid) && !(b.isPrimitive || b.isVoid))

/-- Whether a method with the given erased types may forward to this one. -/
def canBridge (m : Method) (t : MethodType) : Bool :=
  m.parameters.length = t.parameterTypes.length &&
    (List.zipWith passes m.erasedParameterTypes t.parameterTypes).all id &&
    passes m.returnType.erasure t.returnType

/-! ### Text -/

/-- The method as it is declared in source code, under its full name. -/
def display (m : Method) : String :=
  m.modifiers.leadingKeywords ++ (if m.isOrdinary then m.returnType.display ++ " " else "") ++
    m.owner ++ "." ++ m.name ++ "(" ++ TypeRef.displayAll m.parameterTypes ++ ")" ++
    (if m.exceptions.isEmpty then "" else " throws " ++ TypeRef.displayAll m.exceptions)

instance : ToString Method := ⟨display⟩

end Method

end ClassForge
