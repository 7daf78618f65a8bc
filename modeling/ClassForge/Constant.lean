import ClassForge.Code.Emit
import ClassForge.Pool.Hierarchy

/-!
# Constants

A constant is a value that one instruction pushes. Which variables it may be stored in is a
question about the erased type, and for the two constants of class type one about the hierarchy.
An integer constant goes into every integral type of at most 32 bits, as the machine has one
kind of integer for all of them.
-/

namespace ClassForge

/-- A value that one instruction pushes. -/
inductive Constant where
  | null
  | int (value : Int32)
  | long (value : Int64)
  | boolean (value : Bool)
  | text (value : String)
  | classOf (type : TypeRef)
deriving DecidableEq, Inhabited

namespace Constant

/-- Pushes the constant. -/
def push : Constant → Fragment
  | null => .pushNull
  | int n => .pushInt n
  | long n => .pushLong n
  | boolean b => .pushInt (if b then 1 else 0)
  | text s => .pushText s
  | classOf t => .pushClass t

/-- Whether the constant fits a variable of an erased type. -/
def fitsErased (p : Pool) : Constant → TypeRef → Bool
  | null, .named _ | null, .array _ => true
  | int _, .primitive .int | int _, .primitive .short
  | int _, .primitive .byte | int _, .primitive .char => true
  | long _, .primitive .long => true
  | boolean _, .primitive .boolean => true
  | text _, .named name => p.isAssignable name BinaryName.string
  | classOf _, .named name => p.isAssignable name BinaryName.classLiteral
  | _, _ => false

/-- Whether the constant fits a variable of a type. -/
def fits (c : Constant) (p : Pool) (t : TypeRef) : Bool := c.fitsErased p t.erasure

/-- The constant as it is written in source code. -/
def display : Constant → String
  | null => "null"
  | int n => toString n.toInt
  | long n => toString n.toInt ++ "L"
  | boolean b => toString b
  | text s => Text.quoted s
  | classOf t => t.display ++ ".class"

instance : ToString Constant := ⟨display⟩

end Constant

end ClassForge
