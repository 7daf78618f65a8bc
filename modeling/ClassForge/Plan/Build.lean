import ClassForge.Pool.Builtin
import ClassForge.Plan.Decode
import ClassForge.Subclass
import ClassForge.TypeRef.Parser

/-!
# Carrying out a plan

To carry out a plan, its types are registered in addition to the builtin ones, the class is
described to `Subclass`, and that is run. Names of types and keywords are read on the way, each in
the order of the plan, so the first one that cannot be read is the error.

## Main definitions

* `PlanError` — what can go wrong
* `Plan.pool` — the pool that the plan builds on
* `Plan.subclass` — the description of the class
* `Plan.make` — the built class
-/

namespace ClassForge

/-- Why a plan cannot be carried out. -/
inductive PlanError where
  /-- The text does not name a type. -/
  | typeName (text : String) (fault : TypeRef.ParseFault)
  | unknownKeyword (keyword : String)
  /-- The value is not one of the type. -/
  | misfit (value : Literal) (type : TypeRef)
  /-- The method has an implementation and a default. -/
  | severalBodies (method : String)
  | build (cause : BuildError)
deriving DecidableEq

/-- The outcome of a step in carrying out a plan. -/
abbrev Planned := Except PlanError

/-- The outcome of a step of the build that a plan describes. -/
def Planned.ofBuild {α : Type} (x : Build α) : Planned α := x.mapError .build

/-! ### Literals -/

namespace Literal

/-- The literal as it is written in source code. -/
def display : Literal → String
  | boolean b => toString b
  | integer n => toString n
  | text s => Text.quoted s

/-- The integer, if it has at most 32 bits. -/
def int32? (n : Int) : Option Int32 :=
  if Int32.minValue.toInt ≤ n ∧ n ≤ Int32.maxValue.toInt then some (.ofInt n) else none

/-- The constant that a literal pushes: an integer is an `int` if it is small enough. -/
def constant : Literal → Constant
  | boolean b => .boolean b
  | integer n => match int32? n with
    | some i => .int i
    | none => .long (.ofInt n)
  | text s => .text s

/-- The value that a literal is for something of a type. The type decides between `int` and `long`,
and between characters and texts. -/
def annotationValue? : Literal → TypeRef → Option AnnotationValue
  | boolean b, _ => some (.boolean b)
  | integer n, .primitive .long => some (.long (.ofInt n))
  | integer n, _ => (int32? n).map .int
  | text s, .primitive .char => match s.toList with
    | [c] => some (.char c)
    | _ => none
  | text s, _ => some (.text s)

/-- The value that a literal is for something of a type. -/
def annotationValue (l : Literal) (t : TypeRef) : Planned AnnotationValue :=
  match l.annotationValue? t with
  | some v => .ok v
  | none => .error (.misfit l t)

end Literal

/-- The error in words. -/
def PlanError.message : PlanError → String
  | typeName text _ => "invalid type name '" ++ text ++ "'"
  | unknownKeyword keyword => "unknown modifier '" ++ keyword ++ "'"
  | misfit value type => "value " ++ value.display ++ " does not fit " ++ type.display
  | severalBodies method => "method '" ++ method ++ "' has both an implementation and a default value"
  | build cause => cause.message

/-! ### Names and keywords -/

namespace Plan

/-- The type of a name. -/
def typeOf (scope : List TypeVariable) (name : String) : Planned TypeRef :=
  (TypeRef.parse name scope).mapError (.typeName name)

/-- The types of some names. -/
def typesOf (scope : List TypeVariable) (names : List String) : Planned (List TypeRef) :=
  names.mapM (typeOf scope)

/-- The flags for each keyword. -/
def flagsOf : List (String × List Flag) :=
  [("public", [.accPublic]), ("private", [.accPrivate]), ("protected", [.accProtected]),
    ("static", [.accStatic]), ("final", [.accFinal]), ("synchronized", [.accSynchronized]),
    ("native", [.accNative]), ("abstract", [.accAbstract]), ("strictfp", [.accStrict]),
    ("synthetic", [.accSynthetic]), ("bridge", [.accBridge]), ("varargs", [.accVarargs]),
    ("annotation", [.accAnnotationType, .accInterface, .accAbstract]), ("enum", [.accEnum])]

/-- The flags with those of one more keyword. -/
def addKeyword (m : Modifiers) (keyword : String) : Planned Modifiers :=
  match flagsOf.lookup keyword with
  | some flags => .ok (m ∪ .of flags)
  | none => .error (.unknownKeyword keyword)

/-- The flags of some keywords. -/
def modifiersOf (keywords : List String) : Planned Modifiers := keywords.foldlM addKeyword .empty

end Plan

open Plan

/-! ### Declarations -/

/-- The field that is described. -/
def FieldOutline.token (scope : List TypeVariable) (f : FieldOutline) :
    Planned FieldToken := do
  let modifiers ← modifiersOf f.keywords
  return { name := f.name, modifiers, type := ← typeOf scope f.type }

/-- The constructor that is described. -/
def ConstructorOutline.token (scope : List TypeVariable) (c : ConstructorOutline) :
    Planned MethodToken := do
  let modifiers ← modifiersOf c.keywords
  return .constructor modifiers (← typesOf scope c.parameters)

/-- The method that is described. -/
def MethodOutline.token (scope : List TypeVariable) (m : MethodOutline) :
    Planned MethodToken := do
  let modifiers ← modifiersOf m.keywords
  let returnType ← typeOf scope m.returns
  let parameters ← typesOf scope m.parameters
  return {
    name := m.name, modifiers, returnType, parameters := parameters.map ({ type := · })
    exceptions := ← typesOf scope m.exceptions }

/-- The superclass of the type that is described. -/
def TypeOutline.superReference (t : TypeOutline) (scope : List TypeVariable) :
    Planned (Option TypeRef) :=
  if t.isInterface then .ok none
  else some <$> typeOf scope (t.superclass.getD BinaryName.object)

/-- The type that is described. -/
def TypeOutline.declaration (t : TypeOutline) : Planned TypeDecl := do
  let typeVariables : List TypeVariable := t.typeVariables.map ({ symbol := · })
  let modifiers ← modifiersOf t.keywords
  let superclass ← t.superReference typeVariables
  let interfaces ← typesOf typeVariables t.interfaces
  let fields ← t.fields.mapM (·.token typeVariables)
  let constructors ← t.constructors.mapM (·.token typeVariables)
  let methods ← t.methods.mapM (·.token typeVariables)
  let kind : Modifiers := if t.isInterface then .of [.accInterface, .accAbstract] else .empty
  return {
    name := t.name, modifiers := modifiers ∪ kind, superclass, interfaces, typeVariables
    fields := fields.map (·.attach t.name)
    methods := (constructors ++ methods).map (·.attach t.name) }

/-- The builtin types and those of the plan. -/
def Plan.pool (p : Plan) : Planned Pool :=
  p.types.foldlM (fun pool t => do return pool.register (← t.declaration)) .builtin

/-! ### The class -/

namespace ImplementationOutline

mutual

/-- The implementation that is described. -/
def implementation : ImplementationOutline → Planned Implementation
  | stub => .ok .stub
  | fixed value => .ok (.fixed (value.elim .null Literal.constant))
  | callSuper => .ok .callSuper
  | throwNew exception message => .ok (.throwNew exception message)
  | accessField name define => return .accessField name (← define.mapM (typeOf []))
  | callHelper name returns value =>
    return .callHelper name (← typeOf [] returns) value.constant
  | sequence parts => return .sequence (← implementations parts)

/-- The implementations that are described. -/
def implementations : List ImplementationOutline → Planned (List Implementation)
  | [] => .ok []
  | i :: is => do return (← i.implementation) :: (← implementations is)

end

end ImplementationOutline

namespace FieldOutline

/-- The rule that annotates the field and gives it its constant; none if there is nothing to
do. -/
def rule? (f : FieldOutline) (type : TypeRef) : Planned (Option FieldRule) :=
  if f.value.isNone && f.annotations.isEmpty then .ok none
  else do
    return some {
      matcher := .named f.name, annotations := f.annotations.map (⟨·, []⟩)
      constant := ← f.value.mapM (·.annotationValue type) }

/-- The class with the field. -/
def define (s : Subclass) (f : FieldOutline) : Planned Subclass := do
  let token ← f.token []
  let s := s.mapDraft (·.addField token)
  return (← f.rule? token.type).elim s s.addFieldRule

end FieldOutline

namespace MethodOutline

/-- What the method does, where `type` is what it returns. -/
def body (m : MethodOutline) (type : TypeRef) : Planned Body :=
  match m.implementation, m.value with
  | some _, some _ => .error (.severalBodies m.name)
  | some i, none => .implemented <$> i.implementation
  | none, some value => .defaultValue <$> value.annotationValue type
  | none, none => .ok .withoutCode

/-- The class with the method. -/
def define (s : Subclass) (m : MethodOutline) : Planned Subclass := do
  let token ← m.token []
  .ofBuild (s.define token (← m.body token.returnType))

end MethodOutline

namespace Interception

/-- The conditions of an interception. -/
def conditions (i : Interception) : List MethodMatcher :=
  (i.name.map .named).toList ++ (i.start.map .startsWith).toList ++
    (i.owner.map .declaredBy).toList ++ (i.arity.map .arity).toList

/-- The methods that meet all conditions. -/
def matcher (i : Interception) : MethodMatcher :=
  match i.conditions with
  | [] => .always
  | c :: cs => cs.foldl .and c

/-- The class with the interception. -/
def define (s : Subclass) (i : Interception) : Planned Subclass := do
  return s.intercept i.matcher (← i.implementation.implementation)

end Interception

namespace Plan

/-- The class of the plan without members. -/
def header (p : Plan) : Planned Subclass := do
  let superclass ← typeOf [] p.target.superclass
  let pool ← p.pool
  let modifiers ← modifiersOf p.target.keywords
  let interfaces ← typesOf [] p.target.interfaces
  let s := { Subclass.new p.target.name superclass pool with config := p.config }
  return s.mapDraft fun d => (d.setModifiers modifiers).addInterfaces interfaces

/-- The description of the class. -/
def subclass (p : Plan) : Planned Subclass := do
  let s ← p.header
  let s ← p.target.fields.foldlM FieldOutline.define s
  let s ← p.target.methods.foldlM MethodOutline.define s
  let s ← p.target.interceptions.foldlM Interception.define s
  return p.target.ignored.foldl (fun s name => s.ignoreAlso (.resolved (.named name))) s

/-- The built class. -/
def make (p : Plan) : Planned BuiltType := do
  .ofBuild ((← p.subclass).make p.target.activation)

end Plan

end ClassForge
