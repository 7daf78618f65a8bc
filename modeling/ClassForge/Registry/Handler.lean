import ClassForge.Draft.Basic
import ClassForge.MethodRecord

/-!
# What answers a method

A handler says how a method that a rule claims is written. It first prepares the type, which may
give the type helper members; compiled for a target it can then plan records. Handlers are data
and are compared: a handler that several rules share prepares the type once.

The handler of visibility bridges belongs to the registry. It prepares nothing, and asking it to
is an error.
-/

namespace ClassForge

/-- How the methods of a rule are written. -/
inductive Handler where
  /-- Without code. -/
  | noCode
  /-- As bridges to the inherited methods. -/
  | bridge
  | implement (implementation : Implementation)
  /-- As annotation elements with a default. -/
  | defaultValue (value : AnnotationValue)
deriving DecidableEq, Inhabited

/-- A handler for the methods of one type. -/
inductive CompiledHandler where
  | noCode
  | bridge (owner superclass : String)
  | implement (code : Appender)
  | defaultValue (value : AnnotationValue)

namespace Handler

/-- The handler in words, if it has some. -/
def display? : Handler → Option String
  | noCode => some "abstract"
  | bridge => some "visibility bridge"
  | defaultValue v => some ("default " ++ v.display)
  | implement _ => none

/-- The draft as the handler needs it. -/
def prepare (d : Draft) : Handler → Build Draft
  | noCode | defaultValue _ => .ok d
  | implement i => .ok (i.prepare d)
  | bridge => .error (.misuse .bridgePreparesType)

/-- The handler for the methods of a target's type. A bridge of a type without a superclass names
the root class. -/
def compile (t : Target) : Handler → CompiledHandler
  | noCode => .noCode
  | bridge => .bridge t.type.name (t.superName?.getD BinaryName.object)
  | implement i => .implement (.implementation i t)
  | defaultValue v => .defaultValue v

end Handler

/-- The flags of a visibility bridge to a method with the flags `m`. -/
def Modifiers.ofVisibilityBridge (m : Modifiers) : Modifiers :=
  (m ∪ .of [.accSynthetic, .accBridge]) \ .of [.accNative]

/-- The record for a method. -/
def CompiledHandler.record (m : Method) (sources : List AnnotationSource) (v : Visibility) :
    CompiledHandler → MethodRecord
  | noCode => .declared m sources v
  | implement code => .implemented m code sources v
  | defaultValue value => .annotationDefault m value sources
  | bridge owner superclass =>
    .visibilityBridge { m with owner, modifiers := m.modifiers.ofVisibilityBridge } m superclass
      sources

/-- The record with the code of a type initializer in front. -/
def TypeInitializer.wrap (i : TypeInitializer) (r : MethodRecord) : Build MethodRecord :=
  match i.code with
  | none => .ok r
  | some first => r.prepend first

end ClassForge
