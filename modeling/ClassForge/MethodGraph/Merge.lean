import ClassForge.MethodGraph.Node
import ClassForge.Pool.Hierarchy

/-!
# Putting families together

The families of a type are put together from those of its supertypes and its own methods, and
three rules say how.

* A method that the type declares represents its family (`declare`). A bridge is no declaration of
  its own: where the family already has its erased types, it makes the family visible, and
  otherwise it does not count.
* Of two sibling interfaces (`combine`) the one that inherits from the other wins. If neither does,
  the family is ambiguous, unless both sides only declare it without code.
* A class wins over interfaces (`inject`), whatever they declare.

Whichever side wins, declarations, types and visibility of both are kept (`Node.absorb`).
-/

namespace ClassForge

/-- The list with `x` at the end, if it is not there already. -/
def addNew {α : Type} [DecidableEq α] (xs : List α) (x : α) : List α :=
  if x ∈ xs then xs else xs ++ [x]

theorem mem_addNew {α : Type} [DecidableEq α] {xs : List α} {x y : α} :
    y ∈ addNew xs x ↔ y ∈ xs ∨ y = x := by
  unfold addNew
  split
  · exact ⟨.inl, fun h => h.elim id fun e => e ▸ ‹_›⟩
  · simp

namespace Node

/-- The family of one declaration, which looks like `shape` where it is seen. -/
def ofDeclaration (shape m : Method) : Node where
  representative := m
  declarations := [m]
  types := addNew [m.type] shape.type
  visibility := m.visibility
  sort := .resolved

/-- The family with a nearer declaration, which looks like `shape` where it is seen. -/
def override (node : Node) (shape m : Method) : Node where
  representative := m
  declarations := m :: node.declarations
  types := addNew (addNew node.types shape.type) m.type
  visibility := node.visibility.widen m.visibility
  sort := .resolved

/-- The family once a bridge of the type exposes it. -/
def expose (node : Node) (bridge : Method) : Node :=
  if bridge.type ∈ node.types then
    { node with visibility := node.visibility.widen bridge.visibility, sort := .visible }
  else node

/-- The declarations with those of another list that are not among them. -/
def mergeDeclarations (ds : List Method) (new : List Method) : List Method :=
  new.foldl (fun ds d => if ds.any (·.identity = d.identity) then ds else ds ++ [d]) ds

/-- The family with the declarations, types and visibility of another added; representative and
sort stay. -/
def absorb (node other : Node) : Node :=
  { node with
    declarations := mergeDeclarations node.declarations other.declarations
    types := other.types.foldl addNew node.types
    visibility := node.visibility.widen other.visibility }

/-- How the owner of one declaration stands to the owner of another. -/
inductive Standing where
  /-- The second inherits from the first. -/
  | below
  /-- The first is the second, or inherits from it. -/
  | above
  | unrelated
deriving DecidableEq

/-- How the owner of `m` stands to the owner of `n`, as far as the pool knows them. -/
def standing (p : Pool) (m n : Method) : Standing :=
  let inherits (sub super : String) : Bool :=
    match p.find? sub with
    | some t => p.isSubtype t super
    | none => false
  if m.owner = n.owner then .above
  else if inherits n.owner m.owner then .below
  else if inherits m.owner n.owner then .above
  else .unrelated

/-- The family of two sibling interfaces. -/
def combine (p : Pool) (node other : Node) : Node :=
  let merged := node.absorb other
  if node.representative.identity = other.representative.identity then merged
  else
    match standing p node.representative other.representative with
    | .below => { merged with representative := other.representative }
    | .above => merged
    | .unrelated =>
      if node.representative.isAbstract && other.representative.isAbstract then merged
      else { merged with sort := .ambiguous }

end Node

namespace MethodGraph

/-- The families once the type declares a method, which looks like `shape` where it is seen. -/
def declare (g : MethodGraph) (shape m : Method) : MethodGraph :=
  if m.isBridge then
    match g.get? shape.familyKey with
    | some node => g.insert shape.familyKey (node.expose m)
    | none => g
  else
    g.alter shape.familyKey fun
      | some node => node.override shape m
      | none => .ofDeclaration shape m

/-- The families of one interface with those of its next sibling. -/
def combine (p : Pool) (g other : MethodGraph) : MethodGraph :=
  other.entries.foldl (fun g e => g.alter e.1 fun
    | some node => node.combine p e.2
    | none => e.2) g

/-- The families of a superclass with those of the interfaces beneath it. -/
def inject (g interfaces : MethodGraph) : MethodGraph :=
  interfaces.entries.foldl (fun g e => g.alter e.1 fun
    | some node => node.absorb e.2
    | none => e.2) g

end MethodGraph

end ClassForge
