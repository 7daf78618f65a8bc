import ClassForge.Appender
import ClassForge.LoadAction

/-!
# Types under construction

A draft is a declaration that can still grow, with the code collected for its type initializer and
with what happens when the type is loaded. Rules let it grow before any code is made: they add the
fields and helper methods that their implementations rely on.

Nothing here checks whether the declaration makes sense; that is `Draft.validate`.
-/

namespace ClassForge

/-- The code collected for a type initializer. -/
structure TypeInitializer where
  code : Option Appender := none
deriving Inhabited

namespace TypeInitializer

/-- Whether there is code. -/
def isDefined (i : TypeInitializer) : Bool := i.code.isSome

/-- The initializer with code at its end. -/
def append (i : TypeInitializer) (a : Appender) : TypeInitializer :=
  match i.code with
  | none => ⟨some a⟩
  | some existing => ⟨some (.join [existing, a])⟩

/-- The collected code for a method, which is no code at all if nothing was collected. -/
def apply (i : TypeInitializer) (m : Method) : Build Code :=
  match i.code with
  | none => .ok {}
  | some a => a.apply m

end TypeInitializer

/-- A type under construction. -/
structure Draft where
  decl : TypeDecl
  initializer : TypeInitializer := {}
  loaded : LoadAction := .nothing
deriving Inhabited

namespace Draft

/-- A class without members. -/
def subclass (name : String) (modifiers : Modifiers) (superclass : TypeRef) : Draft :=
  { decl := { name, modifiers, superclass := some superclass } }

/-- The draft with a method declared. -/
def addMethod (d : Draft) (t : MethodToken) : Draft :=
  { d with decl := { d.decl with methods := d.decl.methods ++ [t.attach d.decl.name] } }

/-- The draft with a field declared. -/
def addField (d : Draft) (t : FieldToken) : Draft :=
  { d with decl := { d.decl with fields := d.decl.fields ++ [t.attach d.decl.name] } }

/-- The draft with those interfaces added that it does not have yet. -/
def addInterfaces (d : Draft) (ts : List TypeRef) : Draft :=
  { d with decl := { d.decl with interfaces := ts.foldl addNew d.decl.interfaces } }

/-- The draft with other flags. -/
def setModifiers (d : Draft) (m : Modifiers) : Draft :=
  { d with decl := { d.decl with modifiers := m } }

/-- The draft with code at the end of its type initializer. -/
def addInitializer (d : Draft) (a : Appender) : Draft :=
  { d with initializer := d.initializer.append a }

/-- The draft with something more to do when it is loaded. -/
def addLoaded (d : Draft) (a : LoadAction) : Draft := { d with loaded := d.loaded.andThen a }

end Draft

namespace Implementation

mutual

/-- The draft with the members added that an implementation relies on. -/
def prepare (d : Draft) : Implementation → Draft
  | accessField name (some type) =>
    d.addField { name, modifiers := .of [.accPrivate], type }
  | callHelper name returnType _ => d.addMethod (helperToken name returnType)
  | sequence parts => prepareAll d parts
  | _ => d

/-- The draft with the members added that several implementations rely on. -/
def prepareAll (d : Draft) : List Implementation → Draft
  | [] => d
  | i :: is => prepareAll (i.prepare d) is

end

end Implementation

end ClassForge
