import ClassForge.Implementation.Compile

/-!
# Appenders

An appender writes the code of a method that it is given: a fixed fragment, an implementation
bound to a target, or several appenders one after the other. Every part is checked by itself, and
the frame of the whole fits each of them.
-/

namespace ClassForge

/-- Writes code for a method. -/
inductive Appender where
  | fragment (code : Fragment)
  | implementation (implementation : Implementation) (target : Target)
  | sequence (parts : List Appender)

namespace Appender

instance : Inhabited Appender := ⟨fragment .empty⟩

/-- The parts that an appender contributes to one that it is joined into. -/
def parts : Appender → List Appender
  | sequence as => as
  | a => [a]

/-- Appenders in order as one; sequences among them are opened up. -/
def join (as : List Appender) : Appender := sequence (as.flatMap parts)

/-- The code of a fragment for a method, if it is legal. -/
def codeOf (m : Method) (f : Fragment) : Build Code :=
  if f.isLegal then .ok (.of f m.frameSize) else .error (.misuse (.illegalCode m))

mutual

/-- The code for a method. -/
def apply (m : Method) : Appender → Build Code
  | fragment f => codeOf m f
  | implementation i t => i.fragment t m true >>= codeOf m
  | sequence as => applyAll m { maxLocals := m.frameSize } as

/-- The code `c` followed by the code of each appender. -/
def applyAll (m : Method) (c : Code) : List Appender → Build Code
  | [] => .ok c
  | a :: as => do
    let next ← a.apply m
    applyAll m (c.andThen next) as

end

end Appender

end ClassForge
