import ClassForge.OrderedMap
import ClassForge.Member.Method

/-!
# Families of methods

The virtual methods that a type has, its own and the inherited ones, fall into families. Methods
are of one family if they have one name and, once the type variables on the way to the type are
resolved, the same erased parameter types. The return type plays no part, so an override that
returns something narrower stays in the family of what it overrides.

A graph has one node for each family. The node names the declaration that represents the family,
keeps all declarations and all erased signatures that occur in it, since a class file has to answer
each of them, and the widest visibility among them.

## Main definitions

* `FamilyKey` — what the methods of a family have in common
* `Node`, `MethodGraph` — a family, and all families of a type in the order they were found
* `MethodGraph.locate?` — the family that answers a call
-/

namespace ClassForge

/-- What the methods of a family have in common. -/
structure FamilyKey where
  name : String
  /-- Erased, as seen from the type that the graph is for. -/
  parameterTypes : List TypeRef
deriving DecidableEq, Inhabited

/-- The key of a method in the shape that it has where it is seen. -/
def Method.familyKey (m : Method) : FamilyKey := ⟨m.name, m.erasedParameterTypes⟩

/-- How the representative of a family came about. -/
inductive NodeSort where
  /-- One declaration is the most specific. -/
  | resolved
  /-- Unrelated interfaces bring in implementations that conflict. -/
  | ambiguous
  /-- A bridge that the type declares makes the method visible already. -/
  | visible
deriving DecidableEq, Inhabited

/-- Whether the representative is what a call runs. -/
def NodeSort.isUnique : NodeSort → Bool
  | ambiguous => false
  | _ => true

/-- The sort in words. -/
def NodeSort.display : NodeSort → String
  | resolved => "resolved"
  | ambiguous => "ambiguous"
  | visible => "visible"

/-- A family of methods. -/
structure Node where
  representative : Method
  /-- The declarations, those nearer to the type first. -/
  declarations : List Method
  /-- The erased types of the declarations, each once. -/
  types : List MethodType
  /-- The widest visibility of a declaration. -/
  visibility : Visibility
  sort : NodeSort
deriving DecidableEq, Inhabited

/-- The families of a type, in the order in which they were found. -/
abbrev MethodGraph := OrderedMap FamilyKey Node

/-- The family that answers a call of a method with the signature: the family of that key, or else
the first of that name in which the erased types occur. -/
def MethodGraph.locate? (g : MethodGraph) (s : Signature) : Option Node :=
  match g.get? ⟨s.name, s.parameterTypes⟩ with
  | some node => some node
  | none => g.values.find? fun node =>
      node.representative.name = s.name && s.toMethodType ∈ node.types

end ClassForge
