import ClassForge.Code.Emit

/-!
# Array elements

Elements are read and written by one instruction for each kind of element. Booleans share the one
for bytes.
-/

namespace ClassForge

/-- How the elements of arrays with some component type are accessed. -/
structure ArrayAccess where
  kind : ElementKind
  /-- The slots of an element on the stack. -/
  slots : Nat
deriving DecidableEq, Inhabited

namespace ArrayAccess

/-- The kind of an element of an erased type; `void` has none. -/
def kindOfErased : TypeRef → Option ElementKind
  | .void => none
  | .primitive .boolean | .primitive .byte => some .byte
  | .primitive .short => some .short
  | .primitive .char => some .char
  | .primitive .int => some .int
  | .primitive .long => some .long
  | .primitive .float => some .float
  | .primitive .double => some .double
  | _ => some .reference

/-- The access for a component type; `void` is none. -/
def of? (component : TypeRef) : Option ArrayAccess :=
  (kindOfErased component.erasure).map (⟨·, component.slots⟩)

/-- Replaces an array and an index by the element. -/
def load (a : ArrayAccess) : Fragment :=
  .op (.loadElement a.kind) (.replace ((a.slots : Int) - 2))

/-- Stores a value; the array and the index are below it. -/
def store (a : ArrayAccess) : Fragment := .op (.storeElement a.kind) (.pop (a.slots + 2))

/-- Runs the `i`-th of some fragments on the `i`-th element of the array on top, which stays there.
Each fragment has to use the element up. -/
def forEach (a : ArrayAccess) (steps : List Fragment) : Fragment :=
  .join (steps.mapIdx fun i step => .join [.dup 1, .pushInt (Int32.ofNat i), a.load, step])

end ArrayAccess

end ClassForge
