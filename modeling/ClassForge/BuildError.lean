import ClassForge.Constant

/-!
# What can go wrong in a build

Errors are causes, each with what it is about; only `message` turns one into words. There are
four groups. A *misuse* is a step asked for something that it cannot do; a *refusal* is an argument
that does not describe anything that could be built; a *fault* is a type whose declarations
contradict each other; and a type may be unknown where its declaration is needed.

A lookup that finds nothing is no error. The step that needed a result decides whether it is one.
-/

namespace ClassForge

/-- A step was asked for something that it cannot do. -/
inductive Misuse where
  /-- The code of the method has an illegal part. -/
  | illegalCode (method : Method)
  /-- There is nothing that a super call from the method could run. -/
  | noSuperMethod (method : Method)
  /-- The method was not moved, so a call of it takes no further arguments. -/
  | notRebased (method : Method)
  /-- A visibility bridge is made by the registry and prepares no type. -/
  | bridgePreparesType
  /-- The method has no code that other code could run before. -/
  | noCode (method : Method)
deriving DecidableEq

/-- An argument describes nothing that could be built. -/
inductive Refusal where
  | emptySequence (method : Method)
  | wrongResult (value : Constant) (method : Method)
  | notThrowable (exception : String)
  | noExceptionConstructor (exception : String)
  | noUniqueField (field : String) (accessor : String)
  | instanceFieldFromStatic (field : String) (method : Method)
  | fieldMisfit (field : String) (type : TypeRef) (method : Method)
  | finalField (field : String)
  | noAccessor (field : String) (method : Method)
  | wrongHelperResult (helper : String) (value : Constant)
  | helperMisfit (helper : String) (returnType : TypeRef) (method : Method)
  | constantOfInstanceField (field : Field)
  | wrongConstant (value : AnnotationValue) (field : Field)
  | wrongDefault (value : AnnotationValue) (type : TypeRef)
  | notAClass (superclass : TypeRef)
  | noDefaultConstructor (superclass : String) (type : String)
deriving DecidableEq

/-- Why the flags of a type exclude each other. -/
inductive TypeFlagsFault where
  | severalVisibilities
  | abstractAndFinal
  | interfaceNotAbstract
  | annotationTypeNotInterface
deriving DecidableEq

/-- Why a superclass cannot be extended. -/
inductive SuperclassFault where
  | ofInterface
  | isFinal
  | isInterface
  | notAClass
deriving DecidableEq

/-- Why a field cannot be declared. -/
inductive FieldFault where
  | name
  | void
  | severalVisibilities
  | notAnInterfaceConstant
deriving DecidableEq

/-- Why a method cannot be declared. -/
inductive MethodFault where
  | name
  | severalVisibilities
  | constructorOfInterface
  | constructorFlags
  | constructorResult
  | abstractInConcreteType
  | abstractFlags
  | defaultOutsideAnnotationType
  | defaultMisfit
  | voidParameter
deriving DecidableEq

/-- A type whose declarations contradict each other or the rules for their kind. -/
inductive TypeFault where
  | name (type : String)
  | flags (type : String) (fault : TypeFlagsFault)
  | superclass (type : String) (superclass : TypeRef) (fault : SuperclassFault)
  | duplicateField (type : String) (field : String)
  | field (type : String) (field : String) (fault : FieldFault)
  /-- Two methods of the type have this name and descriptor. -/
  | duplicateMethod (type : String) (method : Method)
  | method (type : String) (method : Method) (fault : MethodFault)
deriving DecidableEq

/-- Why a build failed. -/
inductive BuildError where
  | misuse (cause : Misuse)
  | refusal (cause : Refusal)
  | unresolvedType (name : String)
  | fault (cause : TypeFault)
deriving DecidableEq

/-! ### Wording -/

/-- The name between the marks that messages put around names. -/
def marked (name : String) : String := "`" ++ name ++ "`"

def Misuse.message : Misuse → String
  | illegalCode m => "cannot generate valid code for " ++ m.display
  | noSuperMethod m => "cannot call super (or default) method for " ++ m.display
  | notRebased m =>
    "cannot process additional arguments for non-rebased method: " ++ m.display
  | bridgePreparesType => "a visibility bridge handler cannot prepare an instrumented type"
  | noCode m => "cannot prepend code to " ++ m.display ++ ", which has no code of its own"

def Refusal.message : Refusal → String
  | emptySequence m => "an empty compound implementation cannot implement " ++ m.display
  | wrongResult c m => "cannot return " ++ c.display ++ " from " ++ m.display
  | notThrowable e => e ++ " is not a throwable type"
  | noExceptionConstructor e => e ++ " declares no accessible constructor for this message"
  | noUniqueField f accessor =>
    "no unique field " ++ marked f ++ " is visible from " ++ accessor
  | instanceFieldFromStatic f m =>
    "cannot access instance field " ++ marked f ++ " from static " ++ m.display
  | fieldMisfit f t m =>
    "field " ++ marked f ++ " of type " ++ t.display ++ " does not fit " ++ m.display
  | finalField f => "cannot set final field " ++ marked f
  | noAccessor f m =>
    m.display ++ " is neither a getter nor a setter for field " ++ marked f
  | wrongHelperResult h c => "helper " ++ marked h ++ " cannot return " ++ c.display
  | helperMisfit h t m =>
    "helper " ++ marked h ++ " returns " ++ t.display ++ ", which does not fit " ++ m.display
  | constantOfInstanceField f =>
    "cannot define a default value for non-static field " ++ f.display
  | wrongConstant v f => v.display ++ " is not a valid default value for " ++ f.display
  | wrongDefault v t => v.display ++ " is not a valid default value for " ++ t.display
  | notAClass t => t.display ++ " cannot be subclassed"
  | noDefaultConstructor s t =>
    s ++ " declares no constructor without arguments visible to " ++ t

def TypeFlagsFault.message : TypeFlagsFault → String
  | severalVisibilities => "more than one visibility modifier"
  | abstractAndFinal => "a type cannot be both abstract and final"
  | interfaceNotAbstract => "an interface must be abstract and cannot be final"
  | annotationTypeNotInterface => "an annotation type must be an interface"

def SuperclassFault.message : SuperclassFault → String
  | ofInterface => "an interface cannot declare a superclass"
  | isFinal => "the superclass is final"
  | isInterface => "the superclass is an interface"
  | notAClass => "the superclass is not a class type"

def FieldFault.message : FieldFault → String
  | name => "not a legal field name"
  | void => "a field cannot be of type void"
  | severalVisibilities => "more than one visibility modifier"
  | notAnInterfaceConstant => "interface fields must be public, static and final"

def MethodFault.message : MethodFault → String
  | name => "not a legal method name"
  | severalVisibilities => "more than one visibility modifier"
  | constructorOfInterface => "an interface cannot declare a constructor"
  | constructorFlags => "illegal constructor modifiers"
  | constructorResult => "a constructor must return void"
  | abstractInConcreteType => "an abstract method requires an abstract type"
  | abstractFlags => "illegal combination with the abstract modifier"
  | defaultOutsideAnnotationType => "only annotation types may declare default values"
  | defaultMisfit => "default value is incompatible with the return type"
  | voidParameter => "a parameter cannot be of type void"

def TypeFault.message : TypeFault → String
  | name t => "illegal type name " ++ marked t
  | flags t f => "illegal modifiers for type " ++ marked t ++ ": " ++ f.message
  | superclass t s f =>
    "cannot extend " ++ marked s.display ++ " from " ++ marked t ++ ": " ++ f.message
  | duplicateField t x => "duplicate field " ++ marked x ++ " in " ++ marked t
  | field t x f => "illegal field " ++ marked x ++ " in " ++ marked t ++ ": " ++ f.message
  | duplicateMethod t m =>
    "duplicate method " ++ marked (m.name ++ m.descriptor) ++ " in " ++ marked t
  | method t m f =>
    "illegal method " ++ marked (m.name ++ m.descriptor) ++ " in " ++ marked t ++ ": " ++ f.message

/-- The error in words. -/
def BuildError.message : BuildError → String
  | misuse cause => "illegal state: " ++ cause.message
  | refusal cause => "illegal argument: " ++ cause.message
  | unresolvedType name => "cannot resolve type " ++ marked name
  | fault cause => cause.message

instance : ToString BuildError := ⟨BuildError.message⟩

/-- The outcome of a step of a build. -/
abbrev Build := Except BuildError

/-- The declaration of a name that a build cannot do without. -/
def Pool.resolve (p : Pool) (name : String) : Build TypeDecl :=
  match p.find? name with
  | some t => .ok t
  | none => .error (.unresolvedType name)

end ClassForge
