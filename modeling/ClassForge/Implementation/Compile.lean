import ClassForge.FieldLocator
import ClassForge.Implementation.Basic
import ClassForge.Target

/-!
# Code for implementations

For a target and a method, an implementation becomes a fragment. A *terminal* fragment returns
from the method; one that is not terminal leaves the stack as it was, so that further parts of a
sequence can follow. An exception is thrown in either case.

What a method cannot do is refused here: a constant that is not of its return type, a field that
it may not use, a super call without anything to call. A fragment that is delivered may still have
an illegal part, which is found when code is made of it.
-/

namespace ClassForge

/-- The private static method that a type gets for `Implementation.callHelper`. -/
def helperToken (name : String) (returnType : TypeRef) : MethodToken :=
  { name, modifiers := .of [.accPrivate, .accStatic, .accSynthetic], returnType }

/-- Makes a value of type `source` one of type `wanted`, where that needs no conversion. -/
def assign? (p : Pool) (source wanted : TypeRef) : Option Fragment :=
  let s := source.erasure
  let w := wanted.erasure
  if s = w then some .empty
  else if s.isPrimitive || w.isPrimitive || s.isVoid || w.isVoid then none
  else
    match s.rawName?, w.rawName? with
    | some a, some b => if p.isAssignable b a then some .empty else none
    | none, some b => if b = BinaryName.object then some .empty else none
    | _, none => none

/-- Returns from the method with the value of type `t` on top, or drops it. -/
def finish (m : Method) (t : TypeRef) (terminal : Bool) : Fragment :=
  if terminal then .ret m.returnType else .pop t.slots

namespace Implementation

/-- An error if `fault` holds. -/
def refuseIf (fault : Bool) (cause : Refusal) : Build Unit :=
  if fault then .error (.refusal cause) else .ok ()

/-- The value, or an error if there is none. -/
def orRefuse {α : Type} (x : Option α) (cause : Refusal) : Build α :=
  match x with
  | some x => .ok x
  | none => .error (.refusal cause)

def stubFragment (m : Method) (terminal : Bool) : Fragment :=
  if terminal then .join [.pushDefault m.returnType, .ret m.returnType] else .empty

def fixedFragment (p : Pool) (c : Constant) (m : Method) (terminal : Bool) : Build Fragment := do
  refuseIf (!c.fits p m.returnType) (.wrongResult c m)
  return if terminal then .join [c.push, .ret m.returnType] else .empty

def superFragment (t : Target) (m : Method) (terminal : Bool) : Build Fragment :=
  match t.superCall? m.signature with
  | none => .error (.misuse (.noSuperMethod m))
  | some call =>
    .ok (.join
      [.loadArguments m (!m.isStatic), call.fragment, finish m call.method.returnType terminal])

/-- The constructor that makes an exception with or without a message. -/
def exceptionConstructor? (t : Target) (exception : TypeDecl) (message : Option String) :
    Option Method :=
  let parameterTypes : List TypeRef := message.toList.map fun _ => .named BinaryName.string
  exception.methods.find? fun m =>
    m.isConstructor && m.erasedParameterTypes = parameterTypes && m.isVisibleTo t.type t.pool

def throwFragment (t : Target) (exception : String) (message : Option String) :
    Build Fragment := do
  let type ← t.pool.resolve exception
  refuseIf (!t.pool.isSubtype type BinaryName.throwable) (.notThrowable exception)
  let constructor ←
    orRefuse (exceptionConstructor? t type message) (.noExceptionConstructor exception)
  return .join
    [.newInstance exception, message.elim .empty .pushText, .invoke constructor .special, .throw]

def fieldFragment (t : Target) (name : String) (m : Method) (terminal : Bool) :
    Build Fragment := do
  let f ← orRefuse ((FieldLocator.inHierarchy t.pool t.type t.type).locate? t.pool name)
    (.noUniqueField name t.type.name)
  refuseIf (m.isStatic && !f.isStatic) (.instanceFieldFromStatic name m)
  let receiver : Fragment := if f.isStatic then .empty else .loadThis
  match m.parameters, m.returnType.isVoid with
  | [], false =>
    if !terminal then return .empty
    let conversion ← orRefuse (assign? t.pool f.type m.returnType) (.fieldMisfit name f.type m)
    return .join [receiver, .getField f, conversion, .ret m.returnType]
  | [value], true =>
    refuseIf f.isFinal (.finalField name)
    let conversion ← orRefuse (assign? t.pool value.type f.type) (.fieldMisfit name f.type m)
    return .join
      [receiver, .load value.type (m.parameterOffset 0), conversion, .putField f,
        if terminal then .ret .void else .empty]
  | _, _ => .error (.refusal (.noAccessor name m))

def helperFragment (t : Target) (name : String) (returnType : TypeRef) (value : Constant)
    (m : Method) (terminal : Bool) : Build Fragment := do
  refuseIf (!value.fits t.pool returnType) (.wrongHelperResult name value)
  let helper := (helperToken name returnType).attach t.type.name
  if m.identity = helper.identity then return .join [value.push, .ret returnType]
  let call : Fragment := .invoke helper .static
  if !terminal || m.returnType.isVoid then
    return .join [call, .pop returnType.slots, if terminal then .ret .void else .empty]
  let conversion ← orRefuse (assign? t.pool returnType m.returnType)
    (.helperMisfit name returnType m)
  return .join [call, conversion, finish m returnType true]

mutual

/-- The code of an implementation for a method. -/
def fragment (t : Target) (m : Method) (terminal : Bool) : Implementation → Build Fragment
  | stub => .ok (stubFragment m terminal)
  | fixed value => fixedFragment t.pool value m terminal
  | callSuper => superFragment t m terminal
  | throwNew exception message => throwFragment t exception message
  | accessField name _ => fieldFragment t name m terminal
  | callHelper name returnType value => helperFragment t name returnType value m terminal
  | sequence parts => do
    refuseIf parts.isEmpty (.emptySequence m)
    return .join (← fragments t m terminal parts)

/-- The code of the parts of a sequence, of which only the last is terminal. -/
def fragments (t : Target) (m : Method) (terminal : Bool) :
    List Implementation → Build (List Fragment)
  | [] => .ok []
  | [i] => return [← i.fragment t m terminal]
  | i :: is => do
    let first ← i.fragment t m false
    return first :: (← fragments t m terminal is)

end

end Implementation

end ClassForge
