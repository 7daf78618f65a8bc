import ClassForge.Pool.Basic

/-!
# Superclasses, interfaces and subtypes

A type's hierarchy starts with the type itself, goes up the chain of its superclasses as far as
the pool knows them, and then lists the interfaces of all types listed so far, breadth first. Each
name comes once.

Nothing keeps a pool from being partial or cyclic, so both walks remember the names that they have
met and stop at an unknown or a repeated one. Each step of the chain meets a new type of the pool,
and each step of the breadth-first walk takes one reference from the queue, of which there are
never more than the references written in the declarations; these bounds are what the walks are
given as their first argument.

## Main definitions

* `Pool.superclassChain` — the known superclasses, nearest first
* `Pool.hierarchy` — the type, its superclasses, and their interfaces
* `Pool.isSubtype`, `Pool.isAssignable` — inheritance from a name, and between two names
-/

namespace ClassForge.Pool

/-- The known superclasses of `t`, nearest first, up to a name in `seen` or unknown. -/
def chainFrom (p : Pool) : Nat → List String → TypeDecl → List TypeDecl
  | 0, _, _ => []
  | n + 1, seen, t =>
    match t.superName? with
    | none => []
    | some name =>
      if name ∈ seen then []
      else
        match p.find? name with
        | none => []
        | some u => u :: p.chainFrom n (name :: seen) u

/-- The known superclasses of a type, nearest first. The walk ends at an unknown name, and at one
that it has met before. -/
def superclassChain (p : Pool) (t : TypeDecl) : List TypeDecl := p.chainFrom p.size [t.name] t

/-- The known interfaces that the references in a queue lead to, breadth first, leaving out the
names in `seen`. -/
def interfacesFrom (p : Pool) : Nat → List String → List TypeRef → List TypeDecl
  | 0, _, _ => []
  | _, _, [] => []
  | n + 1, seen, reference :: queue =>
    match reference.rawName? with
    | none => p.interfacesFrom n seen queue
    | some name =>
      if name ∈ seen then p.interfacesFrom n seen queue
      else
        match p.find? name with
        | none => p.interfacesFrom n (name :: seen) queue
        | some u => u :: p.interfacesFrom n (name :: seen) (queue ++ u.interfaces)

/-- The number of interface references in the declarations of the pool. -/
def interfaceCount (p : Pool) : Nat := (p.types.flatMap (·.interfaces)).length

/-- The type, its superclasses nearest first, then all interfaces reached from these, breadth
first. -/
def hierarchy (p : Pool) (t : TypeDecl) : List TypeDecl :=
  let classes := t :: p.superclassChain t
  let queue := classes.flatMap (·.interfaces)
  classes ++ p.interfacesFrom (queue.length + p.interfaceCount) (classes.map (·.name)) queue

/-- Whether `t` is the type of that name or inherits from it. A direct superclass counts even if
the pool does not know it. -/
def isSubtype (p : Pool) (t : TypeDecl) (name : String) : Bool :=
  t.name = name || (p.hierarchy t).any (·.name = name) || t.superName? = some name

/-- Whether a value of the class `source` may be used as one of the class `target`. -/
def isAssignable (p : Pool) (target source : String) : Bool :=
  target = source || target = BinaryName.object ||
    match p.find? source with
    | some t => p.isSubtype t target
    | none => false

/-- A type is a subtype of itself. -/
@[simp] theorem isSubtype_self (p : Pool) (t : TypeDecl) : p.isSubtype t t.name = true := by
  simp [isSubtype]

end ClassForge.Pool
