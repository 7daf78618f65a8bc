import ClassForge.Code.Instruction

/-!
# Fragments of code and their stack effect

Code is put together from fragments. A fragment knows its instructions and what they do to the
height of the operand stack: the net change, and the highest point reached above the height at
the start. From the second the frame of a method is computed, so both are carried along instead of
being recomputed from instructions.

A fragment may also be illegal, where no instruction says what is wanted. It contributes nothing to
the instructions; code with an illegal part is not legal, and is not written.

## Main definitions

* `Effect` — the effect of code on the height of the stack, composed by `Effect.andThen`
* `Fragment` — nothing, illegal, one instruction, or fragments in order
* `Fragment.join` — fragments in order, without nesting where there is none
* `Code` — the instructions of a method with the size of its frame
-/

namespace ClassForge

/-- What code does to the height of the operand stack. Heights are counted in full, and
`Fragment.sumsFit` says when 32 bits hold them. -/
structure Effect where
  /-- The height at the end less the height at the start. -/
  impact : Int
  /-- The highest point less the height at the start. -/
  maximal : Int
deriving DecidableEq, Inhabited

namespace Effect

/-- The effect of no code. -/
def zero : Effect := ⟨0, 0⟩

/-- The effect of pushing a value of so many slots. -/
def push (slots : Nat) : Effect := ⟨slots, slots⟩

/-- The effect of popping a value of so many slots. -/
def pop (slots : Nat) : Effect := ⟨-slots, 0⟩

/-- The effect of replacing values on top by a value, given how much higher it is. -/
def replace (difference : Int) : Effect := ⟨difference, max difference 0⟩

/-- The effect of code with effect `e` followed by code with effect `f`. -/
def andThen (e f : Effect) : Effect := ⟨e.impact + f.impact, max e.maximal (e.impact + f.maximal)⟩

theorem andThen_assoc (e f g : Effect) :
    (e.andThen f).andThen g = e.andThen (f.andThen g) := by
  simp only [andThen, mk.injEq]
  omega

end Effect

/-- A piece of code with a known effect on the stack. -/
inductive Fragment where
  | empty
  /-- What is wanted cannot be said in code. -/
  | illegal
  | op (instruction : Instruction) (effect : Effect)
  | seq (parts : List Fragment)
deriving Inhabited

namespace Fragment

/-- The parts that a fragment contributes to one that it is joined into. -/
def parts : Fragment → List Fragment
  | empty => []
  | seq fs => fs
  | f => [f]

/-- Fragments in order as one fragment. Empty ones are dropped and sequences opened up. -/
def join (fs : List Fragment) : Fragment := seq (fs.flatMap parts)

mutual

/-- Whether no part is illegal. -/
def isLegal : Fragment → Bool
  | illegal => false
  | seq fs => allLegal fs
  | _ => true

/-- Whether all fragments of a list are legal. -/
def allLegal : List Fragment → Bool
  | [] => true
  | f :: fs => f.isLegal && allLegal fs

end

mutual

/-- The instructions, in order. -/
def instructions : Fragment → List Instruction
  | op i _ => [i]
  | seq fs => allInstructions fs
  | _ => []

/-- The instructions of all fragments of a list. -/
def allInstructions : List Fragment → List Instruction
  | [] => []
  | f :: fs => f.instructions ++ allInstructions fs

end

mutual

/-- The effect on the stack. -/
def effect : Fragment → Effect
  | op _ e => e
  | seq fs => totalEffect .zero fs
  | _ => .zero

/-- The effect of code with the first effect, followed by all fragments of a list. -/
def totalEffect (e : Effect) : List Fragment → Effect
  | [] => e
  | f :: fs => totalEffect (e.andThen f.effect) fs

end

theorem allLegal_eq_all (fs : List Fragment) : allLegal fs = fs.all isLegal := by
  induction fs with
  | nil => rfl
  | cons f fs ih => simp [allLegal, ih]

theorem allInstructions_eq_flatMap (fs : List Fragment) :
    allInstructions fs = fs.flatMap instructions := by
  induction fs with
  | nil => rfl
  | cons f fs ih => simp [allInstructions, ih]

theorem totalEffect_eq_foldl (e : Effect) (fs : List Fragment) :
    totalEffect e fs = fs.foldl (fun e f => e.andThen f.effect) e := by
  induction fs generalizing e with
  | nil => rfl
  | cons f fs ih => simp [totalEffect, ih]

@[simp] theorem isLegal_seq (fs : List Fragment) : (seq fs).isLegal = fs.all isLegal := by
  rw [isLegal, allLegal_eq_all]

@[simp] theorem instructions_seq (fs : List Fragment) :
    (seq fs).instructions = fs.flatMap instructions := by
  rw [instructions, allInstructions_eq_flatMap]

end Fragment

/-- The instructions of a method with the size of the frame that they run in. -/
structure Code where
  instructions : List Instruction := []
  maxStack : Nat := 0
  maxLocals : Nat := 0
deriving DecidableEq, Inhabited

namespace Code

/-- The largest frame that a class file can describe. -/
def frameLimit : Nat := 65535

/-- The code of a fragment in a method with so many local slots. -/
def of (f : Fragment) (locals : Nat) : Code :=
  ⟨f.instructions, min f.effect.maximal.toNat frameLimit, locals⟩

/-- One piece of code followed by another, in a frame that fits both. -/
def andThen (c d : Code) : Code :=
  ⟨c.instructions ++ d.instructions, max c.maxStack d.maxStack, max c.maxLocals d.maxLocals⟩

end Code

end ClassForge
