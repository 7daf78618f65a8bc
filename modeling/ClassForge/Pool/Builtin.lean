import ClassForge.Pool.Basic

/-!
# The types that every program has

A few types of `java.lang` are needed by almost every build: the root class with the methods that
every class inherits, the classes of text and class literals, and the exceptions that generated
code throws. Only the members that a build asks about are declared.
-/

namespace ClassForge.Pool

namespace Builtin

/-- A public method. -/
def publicMethod (owner name : String) (returnType : TypeRef) (parameterTypes : List TypeRef := [])
    (flags : List Flag := []) (exceptions : List TypeRef := []) : Method :=
  { owner, name, modifiers := .of (.accPublic :: flags), returnType,
    parameters := parameterTypes.map ({ type := · }), exceptions }

/-- A public constructor. -/
def publicConstructor (owner : String) (parameterTypes : List TypeRef := []) : Method :=
  { MethodToken.constructor (.of [.accPublic]) parameterTypes with owner }

/-- A public interface. -/
def interface (name : String) (methods : List Method) (typeVariables : List TypeVariable := []) :
    TypeDecl :=
  { name, modifiers := .of [.accPublic, .accInterface, .accAbstract], superclass := none,
    typeVariables, methods }

/-- An abstract method of a public interface. -/
def interfaceMethod (owner name : String) (returnType : TypeRef)
    (parameterTypes : List TypeRef := []) : Method :=
  publicMethod owner name returnType parameterTypes [.accAbstract]

def object : TypeDecl :=
  let owner := BinaryName.object
  { name := owner, modifiers := .of [.accPublic], superclass := none
    methods :=
      [publicConstructor owner,
        publicMethod owner "equals" (.primitive .boolean) [.object],
        publicMethod owner "hashCode" (.primitive .int) [] [.accNative],
        publicMethod owner "toString" (.named BinaryName.string),
        { owner, name := "clone", modifiers := .of [.accProtected, .accNative],
          returnType := .object, exceptions := [.named "java.lang.CloneNotSupportedException"] },
        { owner, name := "finalize", modifiers := .of [.accProtected],
          exceptions := [.named BinaryName.throwable] },
        publicMethod owner "getClass" (.named BinaryName.classLiteral) [] [.accFinal, .accNative],
        publicMethod owner "notify" .void [] [.accFinal, .accNative],
        publicMethod owner "wait" .void [] [.accFinal]
          [.named "java.lang.InterruptedException"]] }

def string : TypeDecl :=
  let owner := BinaryName.string
  { name := owner, modifiers := .of [.accPublic, .accFinal]
    interfaces :=
      [.named "java.lang.CharSequence", .parameterized "java.lang.Comparable" [.named owner]]
    methods :=
      [publicConstructor owner,
        publicMethod owner "length" (.primitive .int),
        publicMethod owner "isEmpty" (.primitive .boolean),
        publicMethod owner "toString" (.named owner),
        publicMethod owner "compareTo" (.primitive .int) [.named owner]] }

def classLiteral : TypeDecl :=
  { name := BinaryName.classLiteral, modifiers := .of [.accPublic, .accFinal]
    typeVariables := [{ symbol := "T" }] }

def charSequence : TypeDecl :=
  let owner := "java.lang.CharSequence"
  interface owner
    [interfaceMethod owner "length" (.primitive .int),
      interfaceMethod owner "toString" (.named BinaryName.string)]

def comparable : TypeDecl :=
  let owner := "java.lang.Comparable"
  interface owner [interfaceMethod owner "compareTo" (.primitive .int) [.typeVar "T" .object]]
    [{ symbol := "T" }]

def runnable : TypeDecl :=
  let owner := "java.lang.Runnable"
  interface owner [interfaceMethod owner "run" .void]

/-- A class of exceptions, with a constructor without and one with a message. -/
def exception (name superclass : String) : TypeDecl :=
  { name, modifiers := .of [.accPublic], superclass := some (.named superclass)
    methods := [publicConstructor name, publicConstructor name [.named BinaryName.string]] }

/-- All of them. -/
def types : List TypeDecl :=
  [object, string, classLiteral, charSequence, comparable, runnable,
    exception BinaryName.throwable BinaryName.object,
    exception "java.lang.Exception" BinaryName.throwable,
    exception "java.lang.RuntimeException" "java.lang.Exception",
    exception "java.lang.IllegalStateException" "java.lang.RuntimeException",
    exception "java.lang.UnsupportedOperationException" "java.lang.RuntimeException",
    exception "java.lang.AbstractMethodError" BinaryName.throwable,
    exception "java.lang.CloneNotSupportedException" "java.lang.Exception"]

end Builtin

/-- The pool of the types that every program has. -/
def builtin : Pool := empty.registerAll Builtin.types

end ClassForge.Pool
