import ClassForge.Registry.Prepare

/-!
# Constructors of a subclass

Constructors are not inherited, so a subclass has to declare its own. A strategy says which: none,
one without parameters, or counterparts of those that the superclass has, as seen through the
reference that the subclass makes to it. Each of them does nothing but call the constructor of the
superclass with the same parameters.
-/

namespace ClassForge

/-- Which constructors a subclass gets. -/
inductive ConstructorStrategy where
  | noConstructors
  /-- A public one without parameters; the superclass must have one that is visible. -/
  | withoutParameters
  /-- Those of the superclass that are visible, with their flags. -/
  | imitate
  /-- Those of the superclass that are public. -/
  | imitatePublic
  /-- Those of the superclass that are visible, made public. -/
  | imitateOpening
deriving DecidableEq, Inhabited

namespace ConstructorStrategy

/-- The constructors of `superclass` that `t` may call. -/
def visibleConstructors (p : Pool) (t superclass : TypeDecl) : List Method :=
  superclass.methods.filter fun m => m.isConstructor && m.isVisibleTo t p

/-- The counterparts of the constructors `visible` of the class `superclass`. -/
def imitations (t superclass : TypeDecl) (bindings : Bindings) (visible : List Method) :
    ConstructorStrategy → Build (List MethodToken)
  | noConstructors => .ok []
  | withoutParameters =>
    if visible.any (·.parameters.isEmpty) then .ok [.constructor (.of [.accPublic]) []]
    else .error (.refusal (.noDefaultConstructor superclass.name t.name))
  | imitate => .ok (visible.map tokenOf)
  | imitatePublic => .ok ((visible.filter (·.isPublic)).map tokenOf)
  | imitateOpening =>
    .ok (visible.map fun m =>
      { tokenOf m with modifiers := (tokenOf m).modifiers.withVisibility .pub })
where
  /-- The constructor in the shape that the subclass sees. -/
  tokenOf (m : Method) : MethodToken := (m.inShape bindings).detach

/-- The constructors for a type. A type without a superclass gets none. -/
def tokens (t : TypeDecl) (p : Pool) (s : ConstructorStrategy) : Build (List MethodToken) :=
  match if s = noConstructors then none else t.superclass with
  | none => .ok []
  | some reference =>
    match reference.rawName? with
    | none => .error (.refusal (.notAClass reference))
    | some name => do
      let superclass ← p.resolve name
      s.imitations t superclass (superclass.bindings reference)
        (visibleConstructors p t superclass)

/-- The rule that implements constructors. -/
def rule : Rule := { matcher := .resolved .isConstructor, handler := .implement .callSuper }

/-- The registry with the rule for the constructors behind all others. -/
def inject (r : Registry) : ConstructorStrategy → Registry
  | noConstructors => r
  | _ => r.append rule

end ConstructorStrategy

end ClassForge
