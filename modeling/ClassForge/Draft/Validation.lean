import ClassForge.Draft.Basic
import ClassForge.Text.Numeric

/-!
# Whether a draft makes sense

A draft is checked once, after all rules have had their say. First the type itself is looked at,
then its fields, then its methods, each in the order of declaration; the first fault ends the
check, and among the faults of one declaration the order below decides.

Checks about the superclass need its declaration. What the pool does not know is not held against
the draft.

## Main definitions

* `Draft.validate` — the first fault of a draft
* `isIdentifier` — the form of names
-/

namespace ClassForge

/-- The words that no name may be. -/
def reservedWords : List String :=
  ["abstract", "assert", "boolean", "break", "byte", "case", "catch", "char", "class", "const",
    "continue", "default", "do", "double", "else", "enum", "extends", "false", "final", "finally",
    "float", "for", "goto", "if", "implements", "import", "instanceof", "int", "interface", "long",
    "native", "new", "null", "package", "private", "protected", "public", "return", "short",
    "static", "strictfp", "super", "switch", "synchronized", "this", "throw", "throws",
    "transient", "true", "try", "void", "volatile", "while"]

/-- Whether the text is a name: a letter, `_` or `$`, then also digits, and no reserved word. -/
def isIdentifier (s : String) : Bool :=
  match s.toList with
  | [] => false
  | c :: cs =>
    (Text.isAlphabetic c || c == '_' || c == '$') &&
      cs.all (fun c => Text.isAlphanumeric c || c == '_' || c == '$') && !reservedWords.contains s

/-- The outcome of a check. -/
abbrev Check := Except TypeFault Unit

/-- The first of some faults whose condition holds, in words that `wrap` makes of it. -/
def firstFault {α : Type} (wrap : α → TypeFault) : List (Bool × α) → Check
  | [] => .ok ()
  | (holds, fault) :: more => if holds then .error (wrap fault) else firstFault wrap more

namespace TypeDecl

/-- The faults of the flags, with their conditions. -/
def flagFaults (t : TypeDecl) : List (Bool × TypeFlagsFault) :=
  [(t.modifiers.hasConflictingVisibility, .severalVisibilities),
    (t.isAbstract && t.isFinal, .abstractAndFinal),
    (t.isInterface && (!t.isAbstract || t.isFinal), .interfaceNotAbstract),
    (t.isAnnotationType && !t.isInterface, .annotationTypeNotInterface)]

/-- The faults of the superclass `s`, with their conditions. -/
def superclassFaults (t : TypeDecl) (p : Pool) (s : TypeRef) : List (Bool × SuperclassFault) :=
  let parent := s.rawName?.bind p.find?
  [(t.isInterface, .ofInterface),
    (parent.any (·.isFinal), .isFinal),
    (parent.any (·.isInterface), .isInterface),
    (s.rawName?.isNone, .notAClass)]

/-- Checks everything but the members. -/
def checkHeader (t : TypeDecl) (p : Pool) : Check := do
  if !(BinaryName.segments t.name).all isIdentifier then .error (.name t.name)
  firstFault (.flags t.name) t.flagFaults
  match t.superclass with
  | none => .ok ()
  | some s => firstFault (.superclass t.name s) (t.superclassFaults p s)

/-- The faults of a field whose name is in order, with their conditions. -/
def fieldFaults (t : TypeDecl) (f : Field) : List (Bool × FieldFault) :=
  [(f.type.isVoid, .void),
    (f.modifiers.hasConflictingVisibility, .severalVisibilities),
    (t.isInterface && !f.modifiers.hasAll [.accPublic, .accStatic, .accFinal],
      .notAnInterfaceConstant)]

/-- Checks fields, of which those before had the names in `seen`. -/
def checkFields (t : TypeDecl) (seen : List String) : List Field → Check
  | [] => .ok ()
  | f :: fs => do
    firstFault (.field t.name f.name) [(!isIdentifier f.name, .name)]
    if f.name ∈ seen then .error (.duplicateField t.name f.name)
    firstFault (.field t.name f.name) (t.fieldFaults f)
    checkFields t (f.name :: seen) fs

/-- The faults of a method whose name is in order, with their conditions. -/
def methodFaults (t : TypeDecl) (m : Method) : List (Bool × MethodFault) :=
  [(m.modifiers.hasConflictingVisibility, .severalVisibilities),
    (m.isConstructor && t.isInterface, .constructorOfInterface),
    (m.isConstructor && m.modifiers.hasAny [.accStatic, .accAbstract, .accFinal, .accNative],
      .constructorFlags),
    (m.isConstructor && !m.returnType.isVoid, .constructorResult),
    (m.isAbstract && !t.isAbstract, .abstractInConcreteType),
    (m.isAbstract && m.modifiers.hasAny [.accPrivate, .accStatic, .accFinal, .accNative,
      .accSynchronized, .accStrict], .abstractFlags),
    (m.defaultValue.isSome && !t.isAnnotationType, .defaultOutsideAnnotationType),
    (m.defaultValue.any (!m.acceptsDefault ·), .defaultMisfit),
    (m.parameters.any (·.type.isVoid), .voidParameter)]

/-- Checks methods, of which those before had the names with descriptors in `seen`. -/
def checkMethods (t : TypeDecl) (seen : List String) : List Method → Check
  | [] => .ok ()
  | m :: ms => do
    let signature := m.name ++ m.descriptor
    firstFault (.method t.name m) [(m.isOrdinary && !isIdentifier m.name, .name)]
    if signature ∈ seen then .error (.duplicateMethod t.name m)
    firstFault (.method t.name m) (t.methodFaults m)
    checkMethods t (signature :: seen) ms

/-- The first fault of a declaration. -/
def check (t : TypeDecl) (p : Pool) : Check := do
  t.checkHeader p
  t.checkFields [] t.fields
  t.checkMethods [] t.methods

end TypeDecl

/-- The declaration of a draft that makes sense. -/
def Draft.validate (d : Draft) (p : Pool) : Build TypeDecl :=
  match d.decl.check p with
  | .ok () => .ok d.decl
  | .error fault => .error (.fault fault)

end ClassForge
