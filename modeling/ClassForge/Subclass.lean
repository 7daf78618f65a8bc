import ClassForge.BuildConfig
import ClassForge.BuiltType

/-!
# Building a subclass

A subclass is described step by step: members, interfaces, rules, initializers. Each step gives a
new description, and a rule added later is tried earlier. `Subclass.make` then runs the build:
constructors are declared, rules claim methods, fields and methods are planned and written.

Rules do not claim inherited methods that are synthetic, nor the inherited `finalize`; more such
exceptions can be added. They do not hold for what the subclass declares itself.

## Main definitions

* `Subclass` — the description of a build
* `Subclass.define` — a method with its body
* `Subclass.make` — the built type
-/

namespace ClassForge

/-- What a defined method does. -/
inductive Body where
  | implemented (implementation : Implementation)
  | withoutCode
  /-- Is an annotation element with a default. -/
  | defaultValue (value : AnnotationValue)

/-- The description of a class that extends another. -/
structure Subclass where
  draft : Draft
  pool : Pool
  config : BuildConfig := {}
  registry : Registry := {}
  fieldRegistry : FieldRegistry := {}
  /-- Inherited methods that no rule claims. -/
  ignored : LatentMatcher
  auxiliary : List BuiltType := []

namespace Subclass

/-- The inherited methods that are ignored from the start. -/
def ignoredFromStart : LatentMatcher :=
  .resolved (.or .isSynthetic (.and (.named "finalize") (.arity 0)))

/-- A public class without members. -/
def new (name : String) (superclass : TypeRef) (p : Pool) : Subclass :=
  { draft := .subclass name (.of [.accPublic]) superclass, pool := p, ignored := ignoredFromStart }

/-- The description with its draft changed. -/
def mapDraft (s : Subclass) (f : Draft → Draft) : Subclass := { s with draft := f s.draft }

/-- A rule that is tried before all earlier ones. -/
def addRule (s : Subclass) (r : Rule) : Subclass := { s with registry := s.registry.prepend r }

/-- A field rule that is tried before all earlier ones. -/
def addFieldRule (s : Subclass) (r : FieldRule) : Subclass :=
  { s with fieldRegistry := s.fieldRegistry.prepend r }

/-- Implements the methods that match. Constructors and the type initializer do not. -/
def intercept (s : Subclass) (m : MethodMatcher) (i : Implementation) : Subclass :=
  s.addRule { matcher := .resolved (.and .isOrdinary m), handler := .implement i }

/-- More inherited methods that no rule claims. -/
def ignoreAlso (s : Subclass) (m : LatentMatcher) : Subclass :=
  { s with ignored := s.ignored.or m }

/-- A type that is written with the class. -/
def addAuxiliary (s : Subclass) (t : BuiltType) : Subclass :=
  { s with auxiliary := s.auxiliary ++ [t] }

/-- A method of the class, bound to a handler. -/
def declare (s : Subclass) (t : MethodToken) (h : Handler) : Subclass :=
  (s.mapDraft (·.addMethod t)).addRule { matcher := .declaredAs t, handler := h }

/-- A method of the class with its body, which also decides whether the method is abstract. -/
def define (s : Subclass) (t : MethodToken) : Body → Build Subclass
  | .implemented i =>
    let flags := t.modifiers \ .of [.accAbstract, .accNative]
    .ok (s.declare { t with modifiers := flags } (.implement i))
  | .withoutCode => .ok (s.declare { t with modifiers := abstractFlags t } .noCode)
  | .defaultValue v =>
    if v.fits t.returnType then
      .ok (s.declare { t with modifiers := abstractFlags t, defaultValue := some v }
        (.defaultValue v))
    else .error (.refusal (.wrongDefault v t.returnType))
where
  abstractFlags (t : MethodToken) : Modifiers := t.modifiers ∪ .of [.accAbstract]

/-- The draft with its constructors. An interface has none. -/
def withConstructors (s : Subclass) : Build Draft :=
  if s.draft.decl.isInterface then .ok s.draft
  else do
    let tokens ← s.config.constructors.tokens s.draft.decl s.pool
    return tokens.foldl Draft.addMethod s.draft

/-- The methods of the class, planned. -/
def compile (s : Subclass) : Build CompiledRegistry := do
  let draft ← s.withConstructors
  let prepared ← (s.config.constructors.inject s.registry).prepare draft s.config.scope
    s.config.validate s.pool (.instrumentable s.ignored)
  return prepared.compile s.config.release

/-- The built class. -/
def make (s : Subclass) (activation : Activation) : Build BuiltType := do
  let compiled ← s.compile
  let fields ← s.fieldRegistry.prepare compiled.draft.decl
  compiled.draft.write s.config.release fields compiled.record compiled.instrumented s.auxiliary
    activation

end Subclass

end ClassForge
