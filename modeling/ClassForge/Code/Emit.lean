import ClassForge.Code.Fragment

/-!
# Fragments for single purposes

Each definition here says one thing in code: push a constant, load a parameter, call a method.
The value kind of a local variable or a result is that of the erased type; the number of slots
that a call or a field access moves is counted on the types as they are declared.
-/

namespace ClassForge.Fragment

/-! ### Constants -/

def pushNull : Fragment := op .pushNull (.push 1)

def pushInt (n : Int32) : Fragment := op (.pushInt n) (.push 1)

def pushLong (n : Int64) : Fragment := op (.pushLong n) (.push 2)

def pushText (s : String) : Fragment := op (.pushText s) (.push 1)

/-- Pushes the class literal of a type; only classes and interfaces have one here. -/
def pushClass (t : TypeRef) : Fragment :=
  match t.erasure.rawName? with
  | some name => op (.pushClass name) (.push 1)
  | none => illegal

/-- Pushes the zero value of a type, or nothing for `void`. -/
def pushDefault (t : TypeRef) : Fragment :=
  match ValueKind.of t with
  | none => empty
  | some .reference => pushNull
  | some .long => pushLong 0
  | some .int => pushInt 0
  | some .float => op .pushFloatZero (.push 1)
  | some .double => op .pushDoubleZero (.push 2)

/-! ### The top of the stack -/

/-- Repeats a value of so many slots. -/
def dup : Nat → Fragment
  | 0 => empty
  | 1 => op .dup (.push 1)
  | _ => op .dup2 (.push 2)

/-- Removes a value of so many slots. -/
def pop : Nat → Fragment
  | 0 => empty
  | 1 => op .pop (.pop 1)
  | _ => op .pop2 (.pop 2)

/-! ### Local variables and results -/

/-- Loads the local variable of a type at a slot. -/
def load (t : TypeRef) (slot : Nat) : Fragment :=
  match ValueKind.of t with
  | some kind => op (.load kind slot) (.push kind.slots)
  | none => illegal

/-- Loads the receiver. -/
def loadThis : Fragment := op (.load .reference 0) (.push 1)

/-- Loads the parameters with the given types from consecutive slots. -/
def loadFrom (slot : Nat) : List TypeRef → List Fragment
  | [] => []
  | t :: ts => load t slot :: loadFrom (slot + t.slots) ts

/-- Loads every parameter of a method, after the receiver if `withThis`. -/
def loadArguments (m : Method) (withThis : Bool) : Fragment :=
  join ((if withThis then [loadThis] else []) ++ loadFrom m.receiverSlots m.parameterTypes)

/-- Returns a value of a type, or nothing for `void`. -/
def ret (t : TypeRef) : Fragment :=
  op (.ret (ValueKind.of t)) (.pop ((ValueKind.of t).elim 0 ValueKind.slots))

/-- Casts the value on top to a type. A primitive value is left as it is. -/
def cast (t : TypeRef) : Fragment :=
  match t.erasure with
  | .named name => op (.cast (.named name)) .zero
  | .array component => op (.cast (.array component)) .zero
  | .void => illegal
  | _ => empty

/-! ### Members -/

/-- Calls a method, naming `owner` as the class that has it. -/
def invokeOn (m : Method) (owner : String) (dispatch : Dispatch) : Fragment :=
  let arguments := TypeRef.totalSlots m.parameterTypes
  let receiver := if dispatch = .static then 0 else 1
  op (.invoke dispatch ⟨owner, m.name, m.type⟩)
    (.replace ((m.returnType.slots : Int) - ((arguments : Int) + receiver)))

/-- Calls a method on its owner. -/
def invoke (m : Method) (dispatch : Dispatch) : Fragment := invokeOn m m.owner dispatch

/-- The field as an instruction names it. -/
def fieldRef (f : Field) : FieldRef := ⟨f.owner, f.name, f.type.erasure⟩

/-- Reads a field; the receiver of an instance field is on the stack. -/
def getField (f : Field) : Fragment :=
  let slots : Int := f.type.slots
  if f.isStatic then op (.getStatic (fieldRef f)) ⟨slots, slots⟩
  else op (.getField (fieldRef f)) ⟨slots - 1, slots - 1⟩

/-- Writes a field with the value on the stack; the receiver of an instance field is below. -/
def putField (f : Field) : Fragment :=
  let slots : Int := f.type.slots
  if f.isStatic then op (.putStatic (fieldRef f)) ⟨-slots, 0⟩
  else op (.putField (fieldRef f)) ⟨-slots - 1, 0⟩

/-- Allocates an instance of a class, and repeats the reference for the constructor. -/
def newInstance (name : String) : Fragment := join [op (.new name) (.push 1), dup 1]

/-- Throws the exception on top. -/
def throw : Fragment := op .throw (.pop 1)

end ClassForge.Fragment
