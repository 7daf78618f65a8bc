import ClassForge.BinaryName
import ClassForge.OrderedMap

/-!
# Type references

A type reference is a type as it stands in the signature of a member. It may be generic, with
type arguments or a type variable, and then has an *erasure*: the raw type that the virtual
machine sees. A member that has been detached from its declaring type refers to that type by the
placeholder `target`, so that it can be attached to another.

Four operations are defined by recursion on references: erasure, substitution for type variables,
and detaching and attaching an owner. They differ in where they look. Substitution leaves the
bound of a variable alone, because a variable that is not replaced stays as declared; detaching
and attaching go into the bound, because the owner may occur there; none of them touches the raw
name of a parameterized reference.

## Main definitions

* `TypeRef` — a reference
* `TypeRef.erasure`, `TypeRef.descriptor` — the raw type, and its text in a class file
* `TypeRef.substitute` — type variables replaced as some `Bindings` say
* `TypeRef.detach`, `TypeRef.attach` — the owner replaced by the placeholder, and back
-/

namespace ClassForge

/-- A primitive type. -/
inductive Primitive where
  | boolean
  | byte
  | short
  | char
  | int
  | long
  | float
  | double
deriving DecidableEq, Inhabited

namespace Primitive

/-- All primitive types. -/
def all : List Primitive := [boolean, byte, short, char, int, long, float, double]

/-- The word for the type in source code. -/
def keyword : Primitive → String
  | boolean => "boolean"
  | byte => "byte"
  | short => "short"
  | char => "char"
  | int => "int"
  | long => "long"
  | float => "float"
  | double => "double"

/-- The letter for the type in a descriptor. -/
def letter : Primitive → Char
  | boolean => 'Z'
  | byte => 'B'
  | short => 'S'
  | char => 'C'
  | int => 'I'
  | long => 'J'
  | float => 'F'
  | double => 'D'

/-- The type with the given word. -/
def ofKeyword? (word : String) : Option Primitive := all.find? (·.keyword = word)

/-- Whether a value takes two slots. -/
def isWide : Primitive → Bool
  | long | double => true
  | _ => false

end Primitive

/-- A type as it stands in a signature. -/
inductive TypeRef where
  /-- The absence of a result. -/
  | void
  | primitive (kind : Primitive)
  /-- A class or interface without type arguments. -/
  | named (name : String)
  /-- A class or interface with type arguments. -/
  | parameterized (raw : String) (arguments : List TypeRef)
  /-- A type variable; it erases to what its bound erases to. -/
  | typeVar (symbol : String) (bound : TypeRef)
  | array (component : TypeRef)
  /-- The declaring type of a member that is detached from it. -/
  | target
deriving Inhabited

namespace TypeRef

/-! ### Equality -/

mutual

/-- Whether two references are the same. -/
def same : TypeRef → TypeRef → Bool
  | void, void => true
  | primitive p, primitive q => p == q
  | named m, named n => m == n
  | parameterized r as, parameterized s bs => r == s && sameAll as bs
  | typeVar x b, typeVar y c => x == y && same b c
  | array a, array b => same a b
  | target, target => true
  | _, _ => false

/-- Whether two lists hold the same references. -/
def sameAll : List TypeRef → List TypeRef → Bool
  | [], [] => true
  | a :: as, b :: bs => same a b && sameAll as bs
  | _, _ => false

end

mutual

theorem same_iff : (a b : TypeRef) → (same a b = true ↔ a = b)
  | void, b => by cases b <;> simp [same]
  | primitive _, b => by cases b <;> simp [same]
  | named _, b => by cases b <;> simp [same]
  | parameterized _ as, b => by cases b <;> simp [same, sameAll_iff as]
  | typeVar _ c, b => by cases b <;> simp [same, same_iff c]
  | array c, b => by cases b <;> simp [same, same_iff c]
  | target, b => by cases b <;> simp [same]

theorem sameAll_iff : (as bs : List TypeRef) → (sameAll as bs = true ↔ as = bs)
  | [], bs => by cases bs <;> simp [sameAll]
  | a :: as, bs => by cases bs <;> simp [sameAll, same_iff a, sameAll_iff as]

end

instance : DecidableEq TypeRef := fun a b => decidable_of_iff _ (same_iff a b)

/-! ### Shape -/

/-- A reference to the root of every class hierarchy. -/
def object : TypeRef := named BinaryName.object

/-- Whether this is a primitive type; `void` is not. -/
def isPrimitive : TypeRef → Bool
  | primitive _ => true
  | _ => false

/-- Whether this is `void`. -/
def isVoid : TypeRef → Bool
  | void => true
  | _ => false

@[simp] theorem isVoid_iff {t : TypeRef} : t.isVoid = true ↔ t = void := by cases t <;> simp [isVoid]

/-- The name of the class that the reference leads to: its own, or that of its bound. -/
def rawName? : TypeRef → Option String
  | named name => some name
  | parameterized raw _ => some raw
  | typeVar _ bound => bound.rawName?
  | _ => none

/-- How many slots a value of the type takes. A variable takes one, whatever its bound. -/
def slots : TypeRef → Nat
  | void => 0
  | primitive p => if p.isWide then 2 else 1
  | _ => 1

/-- How many slots values of some types take one after the other. -/
def totalSlots : List TypeRef → Nat
  | [] => 0
  | t :: ts => t.slots + totalSlots ts

theorem totalSlots_append (ts us : List TypeRef) :
    totalSlots (ts ++ us) = totalSlots ts + totalSlots us := by
  induction ts with
  | nil => simp [totalSlots]
  | cons t ts ih => simp [totalSlots, ih, Nat.add_assoc]

/-! ### Erasure -/

/-- The raw type that the virtual machine sees. -/
def erasure : TypeRef → TypeRef
  | parameterized raw _ => named raw
  | typeVar _ bound => bound.erasure
  | array component => array component.erasure
  | t => t

@[simp] theorem erasure_void : void.erasure = void := rfl
@[simp] theorem erasure_primitive (p : Primitive) : (primitive p).erasure = primitive p := rfl
@[simp] theorem erasure_named (n : String) : (named n).erasure = named n := rfl
@[simp] theorem erasure_parameterized (r : String) (as : List TypeRef) :
    (parameterized r as).erasure = named r := rfl
@[simp] theorem erasure_typeVar (x : String) (b : TypeRef) :
    (typeVar x b).erasure = b.erasure := rfl
@[simp] theorem erasure_array (c : TypeRef) : (array c).erasure = array c.erasure := rfl
@[simp] theorem erasure_target : target.erasure = target := rfl

/-- Erasing twice is erasing once. -/
@[simp] theorem erasure_erasure : (t : TypeRef) → t.erasure.erasure = t.erasure
  | void | primitive _ | named _ | parameterized _ _ | target => rfl
  | typeVar _ bound => erasure_erasure bound
  | array component => congrArg array (erasure_erasure component)

/-- The text of the erasure in a class file. -/
def descriptor : TypeRef → String
  | void => "V"
  | primitive p => String.singleton p.letter
  | named name => "L" ++ BinaryName.internal name ++ ";"
  | parameterized raw _ => "L" ++ BinaryName.internal raw ++ ";"
  | typeVar _ bound => bound.descriptor
  | array component => "[" ++ component.descriptor
  | target => "LTarget;"

/-- A descriptor knows the erasure only. -/
@[simp] theorem descriptor_erasure : (t : TypeRef) → t.erasure.descriptor = t.descriptor
  | void | primitive _ | named _ | parameterized _ _ | target => rfl
  | typeVar _ bound => descriptor_erasure bound
  | array component => congrArg ("[" ++ ·) (descriptor_erasure component)

/-! ### Text -/

mutual

/-- The reference as it is written in source code. -/
def display : TypeRef → String
  | void => "void"
  | primitive p => p.keyword
  | named name => name
  | parameterized raw arguments => raw ++ "<" ++ displayAll arguments ++ ">"
  | typeVar symbol _ => symbol
  | array component => component.display ++ "[]"
  | target => "<target>"

/-- Several references with commas between them. -/
def displayAll : List TypeRef → String
  | [] => ""
  | [t] => t.display
  | t :: ts => t.display ++ ", " ++ displayAll ts

end

instance : ToString TypeRef := ⟨display⟩

end TypeRef

/-! ### Type variables -/

/-- A type variable as it is declared, with what it erases to. -/
structure TypeVariable where
  symbol : String
  bound : TypeRef := TypeRef.object
deriving DecidableEq, Inhabited

/-- Which reference stands for which type variable. -/
abbrev Bindings := OrderedMap String TypeRef

namespace TypeRef

mutual

/-- The reference with the bound variables replaced; the others stay in place. -/
def substitute (bindings : Bindings) : TypeRef → TypeRef
  | typeVar symbol bound => (bindings.get? symbol).getD (typeVar symbol bound)
  | parameterized raw arguments => parameterized raw (substituteAll bindings arguments)
  | array component => array (component.substitute bindings)
  | t => t

/-- `substitute` on every reference of a list. -/
def substituteAll (bindings : Bindings) : List TypeRef → List TypeRef
  | [] => []
  | t :: ts => t.substitute bindings :: substituteAll bindings ts

end

mutual

/-- The reference with the placeholder for the plain reference to `owner`. -/
def detach (owner : String) : TypeRef → TypeRef
  | named name => if name = owner then target else named name
  | parameterized raw arguments => parameterized raw (detachAll owner arguments)
  | typeVar symbol bound => typeVar symbol (bound.detach owner)
  | array component => array (component.detach owner)
  | t => t

/-- `detach` on every reference of a list. -/
def detachAll (owner : String) : List TypeRef → List TypeRef
  | [] => []
  | t :: ts => t.detach owner :: detachAll owner ts

end

mutual

/-- The reference with the plain reference to `owner` for the placeholder. -/
def attach (owner : String) : TypeRef → TypeRef
  | target => named owner
  | parameterized raw arguments => parameterized raw (attachAll owner arguments)
  | typeVar symbol bound => typeVar symbol (bound.attach owner)
  | array component => array (component.attach owner)
  | t => t

/-- `attach` on every reference of a list. -/
def attachAll (owner : String) : List TypeRef → List TypeRef
  | [] => []
  | t :: ts => t.attach owner :: attachAll owner ts

end

theorem substituteAll_eq_map (bindings : Bindings) (ts : List TypeRef) :
    substituteAll bindings ts = ts.map (substitute bindings) := by
  induction ts with
  | nil => rfl
  | cons t ts ih => simp [substituteAll, ih]

theorem detachAll_eq_map (owner : String) (ts : List TypeRef) :
    detachAll owner ts = ts.map (detach owner) := by
  induction ts with
  | nil => rfl
  | cons t ts ih => simp [detachAll, ih]

theorem attachAll_eq_map (owner : String) (ts : List TypeRef) :
    attachAll owner ts = ts.map (attach owner) := by
  induction ts with
  | nil => rfl
  | cons t ts ih => simp [attachAll, ih]

end TypeRef

end ClassForge
