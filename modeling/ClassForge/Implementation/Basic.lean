import ClassForge.Constant

/-!
# Implementations

An implementation says what a method does, before it is known which method that is and to which
type it will belong. It is data: rules are compared by the implementations that they carry, so
equality of implementations is decidable.

Implementations form a tree through `sequence`. All parts but the last run without returning.
-/

namespace ClassForge

/-- What a method does. -/
inductive Implementation where
  /-- Returns the zero value of the return type. -/
  | stub
  /-- Returns a constant. -/
  | fixed (value : Constant)
  /-- Calls the overridden method, or the super constructor, with the same arguments. -/
  | callSuper
  /-- Throws a new exception, with a message if one is given. -/
  | throwNew (exception : String) (message : Option String)
  /-- Reads or writes a field, by the shape of the method. With `define`, the field is a private
  one of that type that the type gets for this purpose. -/
  | accessField (name : String) (define : Option TypeRef)
  /-- Calls a private static helper that the type gets for this purpose and that returns
  `value`. -/
  | callHelper (name : String) (returnType : TypeRef) (value : Constant)
  /-- Runs the parts in order; only the last one returns. -/
  | sequence (parts : List Implementation)
deriving Inhabited

namespace Implementation

mutual

/-- Whether two implementations are the same. -/
def same : Implementation → Implementation → Bool
  | stub, stub => true
  | fixed c, fixed d => c == d
  | callSuper, callSuper => true
  | throwNew e m, throwNew f n => e == f && m == n
  | accessField x s, accessField y t => x == y && s == t
  | callHelper x s c, callHelper y t d => x == y && s == t && c == d
  | sequence is, sequence js => sameAll is js
  | _, _ => false

/-- Whether two lists hold the same implementations. -/
def sameAll : List Implementation → List Implementation → Bool
  | [], [] => true
  | i :: is, j :: js => same i j && sameAll is js
  | _, _ => false

end

mutual

theorem same_iff : (i j : Implementation) → (same i j = true ↔ i = j)
  | stub, j => by cases j <;> simp [same]
  | fixed _, j => by cases j <;> simp [same]
  | callSuper, j => by cases j <;> simp [same]
  | throwNew _ _, j => by cases j <;> simp [same]
  | accessField _ _, j => by cases j <;> simp [same]
  | callHelper _ _ _, j => by cases j <;> simp [same, and_assoc]
  | sequence is, j => by cases j <;> simp [same, sameAll_iff is]

theorem sameAll_iff : (is js : List Implementation) → (sameAll is js = true ↔ is = js)
  | [], js => by cases js <;> simp [sameAll]
  | i :: is, js => by cases js <;> simp [sameAll, same_iff i, sameAll_iff is]

end

instance : DecidableEq Implementation := fun i j => decidable_of_iff _ (same_iff i j)

end Implementation

end ClassForge
