import ClassForge.BuildError
import ClassForge.Naming
import ClassForge.TypeDecl

/-!
# Moving code aside

A type that is written anew may still have to call the code that its methods had before. That code
is kept in synthetic members of the same type. An ordinary method is renamed. A constructor cannot
be renamed, so its copy takes one more parameter, of a type made for this purpose alone, and its
callers pass `null` there.

## Main definitions

* `Relocation` — where the code of one method is
* `RelocationPlan.of` — the plan that moves the chosen methods of a type
* `RelocationPlan.bySignature` — the plan as calls inside the type look it up
-/

namespace ClassForge

/-- Where the code of a method is. -/
inductive Relocation where
  /-- In the method itself. -/
  | kept (method : Method)
  /-- In a method of another name. -/
  | renamed (method : Method)
  /-- In a constructor with one more parameter, of the placeholder type. -/
  | padded (constructor : Method) (placeholder : String)
deriving DecidableEq, Inhabited

namespace Relocation

/-- The method that has the code. -/
def method : Relocation → Method
  | kept m | renamed m | padded m _ => m

/-- Whether the code was moved. -/
def isMoved : Relocation → Bool
  | kept _ => false
  | _ => true

/-- What a caller pushes after the arguments of the method that was called. -/
def additionalArguments : Relocation → Build Fragment
  | kept m => .error (.misuse (.notRebased m))
  | renamed _ => .ok .empty
  | padded _ _ => .ok .pushNull

/-- The flags for the moved code of a method of `t`: it stays static or native, and it is as
narrow as the kind of type allows. -/
def movedModifiers (t : TypeDecl) (m : Method) : Modifiers :=
  .of [.accSynthetic] ∪ (m.modifiers ∩ .of [.accStatic, .accNative]) ∪
    (if t.isInterface then Visibility.pub else Visibility.priv).flags

/-- The renamed copy of a method of `t`, with erased types. -/
def rename (t : TypeDecl) (naming : Naming) (m : Method) : Relocation :=
  renamed
    { owner := t.name, name := naming.apply m, modifiers := movedModifiers t m
      returnType := m.returnType.erasure
      parameters := m.parameters.map fun p => { type := p.type.erasure, name := p.name }
      exceptions := m.exceptions.map TypeRef.erasure }

/-- The copy of a constructor with a placeholder parameter, with erased types. -/
def pad (placeholder : String) (m : Method) : Relocation :=
  padded
    { MethodToken.constructor (.of [.accSynthetic, .accPrivate])
        (m.erasedParameterTypes ++ [.named placeholder]) with
      owner := m.owner, exceptions := m.exceptions.map TypeRef.erasure }
    placeholder

end Relocation

/-- Which methods of a type are moved, and where to. -/
structure RelocationPlan where
  moves : OrderedMap MethodIdentity Relocation
  /-- The type that pads constructors; it has to be written with the type. -/
  placeholder : Option TypeDecl
deriving Inhabited

namespace RelocationPlan

/-- The plan that moves nothing. -/
def none : RelocationPlan := ⟨.empty, .none⟩

/-- The type that pads the constructors of `t`. -/
def placeholderFor (t : TypeDecl) (suffix : String) : TypeDecl :=
  { name := derivedName t.name suffix [t.name, suffix], modifiers := .of [.accSynthetic] }

/-- Where the plan for `t` moves one of its methods. -/
def move (t : TypeDecl) (suffix : String) (naming : Naming) (m : Method) : Relocation :=
  if m.isConstructor then .pad (placeholderFor t suffix).name m else .rename t naming m

/-- The plan that moves those methods of `t` whose tokens are given. -/
def of (t : TypeDecl) (tokens : List MethodToken) (suffix : String) (naming : Naming) :
    RelocationPlan :=
  let chosen := t.methods.filter fun m => tokens.any (·.key = m.detach.key)
  { moves := .ofList (chosen.map fun m => (m.identity, move t suffix naming m))
    placeholder := if chosen.any (·.isConstructor) then some (placeholderFor t suffix) else .none }

/-- Where the code of a method is. -/
def find (p : RelocationPlan) (m : Method) : Relocation := (p.moves.get? m.identity).getD (.kept m)

/-- The moves by the signature of the method that is moved; of two with one signature the later
counts. -/
def bySignature (p : RelocationPlan) : OrderedMap Signature Relocation :=
  .ofList (p.moves.entries.map fun e => (e.1.toSignature, e.2))

end RelocationPlan

end ClassForge
