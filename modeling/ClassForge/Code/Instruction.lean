import ClassForge.Member.Field
import ClassForge.Member.Method

/-!
# Instructions

An instruction names what it works on by symbols (owner, name and erased types) and not by places
in a constant pool, so it can be shown and reasoned about by itself. Class names are binary names;
only the text of an instruction spells them with slashes.
-/

namespace ClassForge

/-- What the operand stack distinguishes. All integers of up to 32 bits and booleans are one
kind. -/
inductive ValueKind where
  | int
  | long
  | float
  | double
  | reference
deriving DecidableEq, Inhabited

namespace ValueKind

/-- The kind of a value of an erased type; `void` has none. -/
def ofErased : TypeRef → Option ValueKind
  | .void => none
  | .primitive .long => some long
  | .primitive .float => some float
  | .primitive .double => some double
  | .primitive _ => some int
  | _ => some reference

/-- The kind of a value of a type, or `none` for one that erases to `void`. -/
def of (t : TypeRef) : Option ValueKind := ofErased t.erasure

/-- How many slots a value takes. -/
def slots : ValueKind → Nat
  | long | double => 2
  | _ => 1

/-- The letter that starts an instruction for the kind. -/
def letter : ValueKind → String
  | int => "i"
  | long => "l"
  | float => "f"
  | double => "d"
  | reference => "a"

end ValueKind

/-- What the instructions on array elements distinguish. -/
inductive ElementKind where
  /-- Bytes and booleans. -/
  | byte
  | short
  | char
  | int
  | long
  | float
  | double
  | reference
deriving DecidableEq, Inhabited

/-- The letter that starts an instruction for the kind. -/
def ElementKind.letter : ElementKind → String
  | byte => "b"
  | short => "s"
  | char => "c"
  | int => "i"
  | long => "l"
  | float => "f"
  | double => "d"
  | reference => "a"

/-- How a call finds the code that it runs. -/
inductive Dispatch where
  /-- By the class of the receiver. -/
  | virtual
  /-- By the class of the receiver, through an interface. -/
  | interface
  /-- The named method itself. -/
  | special
  /-- The named method itself, without a receiver. -/
  | static
deriving DecidableEq, Inhabited

/-- The instruction that calls this way. -/
def Dispatch.opcode : Dispatch → String
  | virtual => "invokevirtual"
  | interface => "invokeinterface"
  | special => "invokespecial"
  | static => "invokestatic"

/-- A field as an instruction names it. -/
structure FieldRef where
  owner : String
  name : String
  type : TypeRef
deriving DecidableEq, Inhabited

/-- A method as an instruction names it. -/
structure MethodRef where
  owner : String
  name : String
  type : MethodType
deriving DecidableEq, Inhabited

/-- An instruction of the virtual machine. -/
inductive Instruction where
  | nop
  | pushNull
  | pushInt (value : Int32)
  | pushLong (value : Int64)
  | pushFloatZero
  | pushDoubleZero
  | pushText (value : String)
  /-- Pushes the class literal of a class. -/
  | pushClass (name : String)
  | load (kind : ValueKind) (slot : Nat)
  | store (kind : ValueKind) (slot : Nat)
  | loadElement (kind : ElementKind)
  | storeElement (kind : ElementKind)
  | arrayLength
  | dup
  /-- Repeats two slots. -/
  | dup2
  | pop
  /-- Removes two slots. -/
  | pop2
  | new (name : String)
  /-- Checks a reference against an erased type. -/
  | cast (type : TypeRef)
  | invoke (dispatch : Dispatch) (method : MethodRef)
  | getField (field : FieldRef)
  | putField (field : FieldRef)
  | getStatic (field : FieldRef)
  | putStatic (field : FieldRef)
  | throw
  /-- Returns with a value of the kind, or without one. -/
  | ret (kind : Option ValueKind)
deriving DecidableEq, Inhabited

/-- The field with its owner and descriptor. -/
def FieldRef.display (f : FieldRef) : String :=
  BinaryName.internal f.owner ++ "." ++ f.name ++ ":" ++ f.type.descriptor

/-- The method with its owner and descriptor. -/
def MethodRef.display (m : MethodRef) : String :=
  BinaryName.internal m.owner ++ "." ++ m.name ++ ":" ++ m.type.descriptor

namespace Instruction

/-- The instruction as a listing shows it. -/
def display : Instruction → String
  | nop => "nop"
  | pushNull => "aconst_null"
  | pushInt n => "ldc " ++ toString n.toInt
  | pushLong n => "ldc2_w " ++ toString n.toInt ++ "L"
  | pushFloatZero => "fconst_0"
  | pushDoubleZero => "dconst_0"
  | pushText s => "ldc " ++ Text.quoted s
  | pushClass name => "ldc " ++ BinaryName.internal name ++ ".class"
  | load kind slot => kind.letter ++ "load " ++ toString slot
  | store kind slot => kind.letter ++ "store " ++ toString slot
  | loadElement kind => kind.letter ++ "aload"
  | storeElement kind => kind.letter ++ "astore"
  | arrayLength => "arraylength"
  | dup => "dup"
  | dup2 => "dup2"
  | pop => "pop"
  | pop2 => "pop2"
  | new name => "new " ++ BinaryName.internal name
  | cast (.named name) => "checkcast " ++ BinaryName.internal name
  | cast type => "checkcast " ++ type.descriptor
  | invoke dispatch method => dispatch.opcode ++ " " ++ method.display
  | getField f => "getfield " ++ f.display
  | putField f => "putfield " ++ f.display
  | getStatic f => "getstatic " ++ f.display
  | putStatic f => "putstatic " ++ f.display
  | throw => "athrow"
  | ret none => "return"
  | ret (some kind) => kind.letter ++ "return"

instance : ToString Instruction := ⟨display⟩

end Instruction

end ClassForge
