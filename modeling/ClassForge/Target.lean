import ClassForge.MethodGraph.Compile
import ClassForge.Pool.Access
import ClassForge.Relocation

/-!
# Where super calls go

Code is generated against a target: the type that it will belong to, what is known of other types,
and where the type's super calls go. A call of a method whose code was moved aside goes to the
moved code. Any other constructor call goes to the constructor of the superclass with the same
erased parameters, and any other method call to the representative of its family in the
superclass, provided that the family has a unique one.

Nothing abstract can be called this way. That there is no super call is an ordinary answer.
-/

namespace ClassForge

/-- What code is generated against. -/
structure Target where
  type : TypeDecl
  pool : Pool
  /-- The families of the superclass. -/
  superGraph : MethodGraph
  /-- The methods whose code was moved aside. -/
  moved : OrderedMap Signature Relocation := .empty

/-- A call that runs exactly the named method. -/
structure SuperCall where
  method : Method
  /-- The class that the instruction names. -/
  owner : String
  dispatch : Dispatch
  /-- Pushes what goes after the arguments. -/
  additional : Fragment

namespace SuperCall

/-- The call of a method that has code. -/
def special? (m : Method) (owner : String) : Option SuperCall :=
  if m.isAbstract then none else some ⟨m, owner, .special, .empty⟩

/-- The instructions of the call; receiver and arguments are on the stack. -/
def fragment (c : SuperCall) : Fragment :=
  .join [c.additional, .invokeOn c.method c.owner c.dispatch]

end SuperCall

namespace Target

/-- The target for a type. -/
def make (t : TypeDecl) (g : LinkedGraph) (p : Pool) (plan : RelocationPlan := .none) : Target :=
  { type := t, pool := p, superGraph := g.superGraph, moved := plan.bySignature }

/-- The name of the superclass. -/
def superName? (t : Target) : Option String := t.type.superName?

/-- The call of the code that was moved to `r`. -/
def relocatedCall? (t : Target) (r : Relocation) : Option SuperCall :=
  match r.additionalArguments with
  | .ok additional =>
    some ⟨r.method, t.type.name, if r.method.isStatic then .static else .special, additional⟩
  | .error _ => SuperCall.special? r.method t.type.name

/-- The call of the constructor of the superclass with the given erased parameter types. -/
def constructorCall? (t : Target) (parameterTypes : List TypeRef) : Option SuperCall := do
  let name ← t.superName?
  let superclass ← t.pool.find? name
  let constructor ← superclass.methods.find? fun m =>
    m.isConstructor && m.erasedParameterTypes = parameterTypes && m.isVisibleTo t.type t.pool
  SuperCall.special? constructor name

/-- The call of the method that the superclass has for a signature. -/
def methodCall? (t : Target) (s : Signature) : Option SuperCall := do
  let name ← t.superName?
  let node ← t.superGraph.locate? s
  if node.sort.isUnique then SuperCall.special? node.representative name else none

/-- The super call for a signature. -/
def superCall? (t : Target) (s : Signature) : Option SuperCall :=
  match t.moved.get? s with
  | some r => t.relocatedCall? r
  | none =>
    if s.name = constructorName then t.constructorCall? s.parameterTypes else t.methodCall? s

end Target

end ClassForge
