import ClassForge.Pool.Hierarchy

/-!
# Who may use what

Code in one type may name another type, and use a member of another type, under the access rules
of the virtual machine. Types that the pool does not know count as public classes.

A member is visible to a type if it is public, if the type declares it, or, unless it is private,
if the type lies in the member's package or the member is protected and the type inherits from
its owner.
-/

namespace ClassForge.Pool

/-- Whether the named type is public; an unknown one is. -/
def isTypePublic (p : Pool) (name : String) : Bool :=
  match p.find? name with
  | some t => t.isPublic
  | none => true

/-- Whether the named type is an interface; an unknown one is not. -/
def isInterface (p : Pool) (name : String) : Bool :=
  match p.find? name with
  | some t => t.isInterface
  | none => false

/-- Whether code in `accessor` may name a type. An array is as visible as its component. -/
def isTypeVisible (p : Pool) (accessor : TypeDecl) : TypeRef → Bool
  | .array component => p.isTypeVisible accessor component
  | .typeVar _ bound => p.isTypeVisible accessor bound
  | .named name => named name
  | .parameterized raw _ => named raw
  | .void | .primitive _ | .target => true
where
  named (name : String) : Bool :=
    name = accessor.name || p.isTypePublic name || BinaryName.package name = accessor.package

/-- Whether code in `accessor` may use a member of the type `owner` with the given flags. -/
def isMemberVisible (p : Pool) (owner : String) (modifiers : Modifiers) (accessor : TypeDecl) :
    Bool :=
  if modifiers.has .accPublic || owner = accessor.name then true
  else if modifiers.has .accPrivate then false
  else
    (modifiers.has .accProtected && p.isSubtype accessor owner) ||
      BinaryName.package owner = accessor.package

end ClassForge.Pool

namespace ClassForge

/-- Whether code in `accessor` may use the field. -/
def Field.isVisibleTo (f : Field) (accessor : TypeDecl) (p : Pool) : Bool :=
  p.isMemberVisible f.owner f.modifiers accessor

/-- Whether code in `accessor` may call the method. -/
def Method.isVisibleTo (m : Method) (accessor : TypeDecl) (p : Pool) : Bool :=
  p.isMemberVisible m.owner m.modifiers accessor

end ClassForge
