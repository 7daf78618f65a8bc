import ClassForge.Pool.Access

/-!
# Finding a field

A field is looked up level by level, on behalf of a type that is going to use it. Fields that this
type may not use are passed over as if they were not declared. The first level with a match
decides, and it decides only if it has a single match; that none was found is an ordinary answer.

## Main definitions

* `FieldScope`, `FieldScope.locator?` — which levels are looked at, and the locator for a type
* `FieldLocator.find?` — the field found
-/

namespace ClassForge

/-- Levels to look at, on behalf of a type. -/
structure FieldLocator where
  levels : List TypeDecl
  accessor : TypeDecl

namespace FieldLocator

/-- The fields of one level that satisfy `wanted` and may be used. -/
def candidates (l : FieldLocator) (p : Pool) (wanted : Field → Bool) (level : TypeDecl) :
    List Field :=
  level.fields.filter fun f => wanted f && f.isVisibleTo l.accessor p

/-- The only element of the first list that has elements. -/
def decide? {α : Type} : List (List α) → Option α
  | [] => none
  | [] :: levels => decide? levels
  | [x] :: _ => some x
  | _ :: _ => none

/-- The field that satisfies `wanted`. -/
def find? (l : FieldLocator) (p : Pool) (wanted : Field → Bool) : Option Field :=
  decide? (l.levels.map (l.candidates p wanted))

/-- The field of a name. -/
def locate? (l : FieldLocator) (p : Pool) (name : String) : Option Field :=
  l.find? p (·.name = name)

/-- The field of a name and an erased type. -/
def locateTyped? (l : FieldLocator) (p : Pool) (name : String) (t : TypeRef) : Option Field :=
  l.find? p fun f => f.name = name && f.type.erasure = t.erasure

/-- Looks at `t` and its supertypes. -/
def inHierarchy (p : Pool) (t accessor : TypeDecl) : FieldLocator := ⟨p.hierarchy t, accessor⟩

/-- Looks at `t` alone. -/
def declaredIn (t accessor : TypeDecl) : FieldLocator := ⟨[t], accessor⟩

end FieldLocator

/-- Where fields are looked up for a type. -/
inductive FieldScope where
  | nowhere
  /-- In the type and its supertypes. -/
  | hierarchy
  /-- In the type. -/
  | topLevel
  /-- In the type of that name. -/
  | exactly (name : String)
deriving DecidableEq, Inhabited

/-- The locator for a type. There is none if the scope names a type that the pool does not
know. -/
def FieldScope.locator? (p : Pool) (t : TypeDecl) : FieldScope → Option FieldLocator
  | nowhere => some ⟨[], t⟩
  | hierarchy => some (.inHierarchy p t t)
  | topLevel => some (.declaredIn t t)
  | exactly name =>
    if name = t.name then some (.declaredIn t t)
    else (p.find? name).map (FieldLocator.declaredIn · t)

end ClassForge
