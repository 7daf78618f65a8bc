import ClassForge.MethodGraph.Merge

/-!
# The families of a type

The families of a type are those of its superclass, then those of its interfaces, then what its
own methods make of them. Type variables are resolved on the way: a parameterized reference to a
supertype says what the variables of the supertype stand for.

A pool may be cyclic, so the walk remembers the path of names that leads to where it is and goes
no further at a name on that path. Siblings are walked independently of each other. A path without
repeats, one repeat at its end, and a root that need not be in the pool: no walk is deeper than the
number of types in the pool plus two, and that is the first argument it is given.

A super call does not see the type's own methods, so a graph comes linked with the graph of the
superclass.

## Main definitions

* `Pool.families` — the families of a type, given the path to it and the meaning of its variables
* `LinkedGraph`, `GraphScope.compile` — the families of a type and of its superclass
-/

namespace ClassForge

namespace Pool

/-- The declaration that a reference to a supertype leads to, with what its variables stand for
where those of the referring type are bound. -/
def supertype? (p : Pool) (bindings : Bindings) (reference : TypeRef) :
    Option (TypeDecl × Bindings) := do
  let t ← p.find? (← reference.rawName?)
  return (t, t.bindings (reference.substitute bindings))

/-- The families of the type `t`, to which the types named in `path` lead and whose variables are
bound as given. -/
def families (p : Pool) : Nat → List String → Bindings → TypeDecl → MethodGraph
  | 0, _, _, _ => .empty
  | n + 1, path, bindings, t =>
    if t.name ∈ path then .empty
    else
      let above (reference : TypeRef) : MethodGraph :=
        match p.supertype? bindings reference with
        | some (u, inner) => p.families n (t.name :: path) inner u
        | none => .empty
      let inherited := (t.superclass.elim .empty above).inject
        (t.interfaces.foldl (fun g i => g.combine p (above i)) .empty)
      (t.methods.filter (·.isVirtual)).foldl (fun g m => g.declare (m.inShape bindings) m) inherited

/-- A depth that no walk over the types of the pool exceeds. -/
def depthBound (p : Pool) : Nat := p.size + 2

end Pool

/-- The families of a type and, for super calls, those of its superclass. -/
structure LinkedGraph where
  graph : MethodGraph
  /-- Empty if the superclass is not known or not looked at. -/
  superGraph : MethodGraph
deriving Inhabited

/-- How much of a type's hierarchy its graph covers. -/
inductive GraphScope where
  /-- All of it. -/
  | hierarchy
  /-- The type's own methods; there are no super calls then. -/
  | declaredOnly
deriving DecidableEq, Inhabited

namespace GraphScope

/-- The families among the methods that the type itself declares. -/
def declaredFamilies (t : TypeDecl) : MethodGraph :=
  (t.methods.filter fun m => m.isVirtual && !m.isBridge).foldl (fun g m => g.declare m m) .empty

/-- The families of the superclass of `t`, seen from `t`. -/
def superFamilies (p : Pool) (t : TypeDecl) : MethodGraph :=
  match t.superclass.bind (p.supertype? .empty) with
  | some (u, bindings) => p.families p.depthBound [t.name] bindings u
  | none => .empty

/-- The graph of a type. -/
def compile (p : Pool) (t : TypeDecl) : GraphScope → LinkedGraph
  | hierarchy => ⟨p.families p.depthBound [] .empty t, superFamilies p t⟩
  | declaredOnly => ⟨declaredFamilies t, .empty⟩

end GraphScope

end ClassForge
