import ClassForge.Appender
import ClassForge.Proofs.OperandStack
import ClassForge.Proofs.Outcomes
import Mathlib.Logic.Function.Basic

/-!
# Widths of slots and heights

A class file has 16 bits for the slot of a local variable and for either size of a frame, and the
size of the stack comes from heights that are added up in 32 bits. Slots and heights are plain
numbers everywhere else. This says no less as long as the words hold them, and whether they do is
said here, once for methods and once for fragments.

For slots it is enough to look at the whole frame. The slot of a parameter counts what stands before
it, so that none lies behind the frame, and 16 bits that hold the size of the frame hold every sum
on the way (`Method.FitsFrame`).

Heights go up and down, so a sum may leave the 32 bits and come back. Each sum has to be looked at
(`Fragment.sumsFit`), and which there are depends on the nesting: a sequence adds up its own parts
first. With words that wrap around, the same operations in another nesting may then have another
effect; where the sums fit, the effect in words is the effect (`Fragment.effect_wordEffect`).

## Main definitions

* `Method.FitsFrame` — 16 bits hold the slots of the receiver and of all parameters
* `Code.FitsFrame`, `Code.FitsWidths` — 16 bits hold the frame of the code, and all of its slots
* `WordEffect`, `Fragment.wordEffect` — effects in words of 32 bits
* `Fragment.sumsFit`, `Appender.sumsFit` — 32 bits hold every sum that the effect of a fragment
  takes, or that the code of an appender takes
* `Appender.stackSize` — the size of the stack for the code, from heights in words

## Main results

* `Appender.fitsFrame_of_apply` — the frame of code that is written
* `Fragment.effect_wordEffect` — words that hold every sum hold the effect
* `Appender.maxStack_of_apply` — the size of the stack comes from heights in words
-/

namespace ClassForge

/-! ### Slots -/

namespace Method

/-- The receiver and all parameters lie in a frame that a class file can describe. -/
def FitsFrame (m : Method) : Prop := m.frameSize ≤ Code.frameLimit

instance : DecidablePred FitsFrame := fun m =>
  inferInstanceAs (Decidable (m.frameSize ≤ Code.frameLimit))

end Method

/-- The slot of the local variable that the instruction works on. -/
def Instruction.slot? : Instruction → Option Nat
  | .load _ slot | .store _ slot => some slot
  | _ => none

namespace Fragment

variable {m : Method} {t : TypeRef} {ts : List TypeRef} {i : Instruction} {slot n : Nat}

theorem eq_of_mem_load (hi : i ∈ (load t slot).instructions) (hn : n ∈ i.slot?) : n = slot := by
  unfold load at hi
  split at hi
  · obtain rfl := List.mem_singleton.1 hi
    exact (Option.some.inj hn).symm
  · cases hi

theorem slot?_of_mem_cast (hi : i ∈ (cast t).instructions) : i.slot? = none := by
  unfold cast at hi
  split at hi
  · obtain rfl := List.mem_singleton.1 hi
    rfl
  · obtain rfl := List.mem_singleton.1 hi
    rfl
  · cases hi
  · cases hi

theorem le_of_mem_loadFrom (hi : i ∈ (loadFrom slot ts).flatMap instructions)
    (hn : n ∈ i.slot?) : n ≤ slot + TypeRef.totalSlots ts := by
  induction ts generalizing slot with
  | nil => cases hi
  | cons t ts ih =>
    rw [loadFrom, List.flatMap_cons, List.mem_append] at hi
    rw [TypeRef.totalSlots]
    rcases hi with hi | hi
    · have := eq_of_mem_load hi hn
      omega
    · have := ih hi
      omega

/-- What a method is called with lies in its frame. -/
theorem le_of_mem_loadArguments {withThis : Bool}
    (hi : i ∈ (loadArguments m withThis).instructions) (hn : n ∈ i.slot?) : n ≤ m.frameSize := by
  rw [loadArguments, instructions_join, List.flatMap_append, List.mem_append] at hi
  rcases hi with hi | hi
  · cases withThis with
    | false => cases hi
    | true =>
      obtain rfl := List.mem_singleton.1 hi
      exact Option.some.inj hn ▸ Nat.zero_le _
  · exact le_of_mem_loadFrom hi hn

end Fragment

namespace Code

/-- A class file can describe the frame of the code. -/
structure FitsFrame (code : Code) : Prop where
  maxStack : code.maxStack ≤ frameLimit
  maxLocals : code.maxLocals ≤ frameLimit

/-- A class file can describe the frame of the code, and every slot that the code names. -/
structure FitsWidths (code : Code) : Prop extends code.FitsFrame where
  slots : ∀ i ∈ code.instructions, ∀ n ∈ i.slot?, n ≤ frameLimit

/-- Code that loads what its method is called with, and no other local variables. -/
theorem FitsFrame.fitsWidths {m : Method} {code : Code} (h : code.FitsFrame) (hm : m.FitsFrame)
    {withThis : Bool} (rest : List Instruction)
    (hcode : code.instructions = (Fragment.loadArguments m withThis).instructions ++ rest)
    (hrest : ∀ i ∈ rest, i.slot? = none) : code.FitsWidths := by
  refine ⟨h, fun i hi n hn => ?_⟩
  rw [hcode, List.mem_append] at hi
  rcases hi with hi | hi
  · exact Nat.le_trans (Fragment.le_of_mem_loadArguments hi hn) hm
  · rw [hrest i hi] at hn
    cases hn

end Code

namespace Appender

variable {m : Method}

theorem frame_of_codeOf {f : Fragment} {c : Code} (h : codeOf m f = .ok c) :
    c.maxStack ≤ Code.frameLimit ∧ c.maxLocals = m.frameSize := by
  unfold codeOf at h
  split at h
  · obtain rfl := Except.ok.inj h
    exact ⟨Nat.min_le_right _ _, rfl⟩
  · cases h

mutual

/-- The frame of the code has room for the local variables of its method, and for no more. -/
theorem frame_of_apply : {a : Appender} → {c : Code} → a.apply m = .ok c →
    c.maxStack ≤ Code.frameLimit ∧ c.maxLocals = m.frameSize
  | fragment f, c, h => frame_of_codeOf h
  | implementation i t, c, h => by
    rw [apply] at h
    obtain ⟨f, -, h⟩ := ok_of_bind h
    exact frame_of_codeOf h
  | sequence as, c, h => by
    rw [apply] at h
    exact frame_of_applyAll ⟨Nat.zero_le _, rfl⟩ h

theorem frame_of_applyAll : {as : List Appender} → {c d : Code} →
    (c.maxStack ≤ Code.frameLimit ∧ c.maxLocals = m.frameSize) → applyAll m c as = .ok d →
      d.maxStack ≤ Code.frameLimit ∧ d.maxLocals = m.frameSize
  | [], c, d, hc, h => by
    rw [applyAll] at h
    exact Except.ok.inj h ▸ hc
  | a :: as, c, d, hc, h => by
    rw [applyAll] at h
    obtain ⟨next, hnext, h⟩ := ok_of_bind h
    obtain ⟨hstack, hlocals⟩ := frame_of_apply hnext
    refine frame_of_applyAll ⟨Nat.max_le.2 ⟨hc.1, hstack⟩, ?_⟩ h
    rw [Code.andThen, hc.2, hlocals, Nat.max_self]

end

/-- **The frame of code that is written** can be described if that of its method can. -/
theorem fitsFrame_of_apply {a : Appender} {c : Code} (hm : m.FitsFrame) (h : a.apply m = .ok c) :
    c.FitsFrame := by
  obtain ⟨hstack, hlocals⟩ := frame_of_apply h
  exact ⟨hstack, hlocals ▸ hm⟩

end Appender

/-! ### Heights -/

/-- An effect on the height of the stack, in words of 32 bits. Sums wrap around. -/
structure WordEffect where
  impact : Int32
  maximal : Int32
deriving DecidableEq

namespace WordEffect

/-- The words for an effect. -/
def of (e : Effect) : WordEffect := ⟨.ofInt e.impact, .ofInt e.maximal⟩

/-- The effect that the words stand for. -/
def effect (w : WordEffect) : Effect := ⟨w.impact.toInt, w.maximal.toInt⟩

/-- The effect of no code. -/
def zero : WordEffect := ⟨0, 0⟩

/-- The effect of code with effect `v` followed by code with effect `w`. -/
def andThen (v w : WordEffect) : WordEffect :=
  ⟨v.impact + w.impact, max v.maximal (v.impact + w.maximal)⟩

theorem effect_zero : zero.effect = .zero := rfl

end WordEffect

namespace Effect

/-- 32 bits hold both numbers of the effect. -/
def fits (e : Effect) : Bool := (WordEffect.of e).effect = e

/-- 32 bits hold both sums that are taken for code with effect `e` followed by code with effect
`f`. -/
def sumsFit (e f : Effect) : Bool := fits ⟨e.impact + f.impact, e.impact + f.maximal⟩

variable {e f : Effect}

theorem fits_iff :
    e.fits = true ↔ (Int32.ofInt e.impact).toInt = e.impact ∧
      (Int32.ofInt e.maximal).toInt = e.maximal := by
  cases e
  simp [fits, WordEffect.of, WordEffect.effect]

/-- How far the effect leads from the height at the start. -/
def weight (e : Effect) : Nat := max e.impact.natAbs e.maximal.natAbs

/-- The greatest height that 32 bits hold. -/
def heightLimit : Nat := 2147483647

theorem weight_le_iff {n : Nat} :
    e.weight ≤ n ↔ e.impact.natAbs ≤ n ∧ e.maximal.natAbs ≤ n :=
  Nat.max_le

/-- Neither of the two sums leads further than both effects. -/
theorem natAbs_sums_le (e f : Effect) :
    (e.impact + f.impact).natAbs ≤ e.weight + f.weight ∧
      (e.impact + f.maximal).natAbs ≤ e.weight + f.weight := by
  obtain ⟨he, -⟩ := weight_le_iff.1 (Nat.le_refl e.weight)
  obtain ⟨himpact, hmaximal⟩ := weight_le_iff.1 (Nat.le_refl f.weight)
  exact ⟨Nat.le_trans (Int.natAbs_add_le ..) (Nat.add_le_add he himpact),
    Nat.le_trans (Int.natAbs_add_le ..) (Nat.add_le_add he hmaximal)⟩

theorem weight_andThen_le (e f : Effect) : (e.andThen f).weight ≤ e.weight + f.weight := by
  obtain ⟨himpact, hmaximal⟩ := natAbs_sums_le e f
  obtain ⟨-, he⟩ := weight_le_iff.1 (Nat.le_refl e.weight)
  refine weight_le_iff.2 ⟨himpact, ?_⟩
  rw [andThen, Int.max_def]
  split
  · exact hmaximal
  · exact Nat.le_trans he (Nat.le_add_right _ _)

theorem fits_of_weight (h : e.weight ≤ heightLimit) : e.fits = true := by
  have hword (n : Int) (hn : n.natAbs ≤ heightLimit) : (Int32.ofInt n).toInt = n := by
    unfold heightLimit at hn
    exact Int32.toInt_ofInt_of_le (by omega) (by omega)
  obtain ⟨himpact, hmaximal⟩ := weight_le_iff.1 h
  exact fits_iff.2 ⟨hword _ himpact, hword _ hmaximal⟩

theorem sumsFit_of_weight (h : e.weight + f.weight ≤ heightLimit) : e.sumsFit f = true := by
  obtain ⟨himpact, hmaximal⟩ := natAbs_sums_le e f
  exact fits_of_weight (weight_le_iff.2 ⟨Nat.le_trans himpact h, Nat.le_trans hmaximal h⟩)

end Effect

namespace WordEffect

theorem toInt_max (a b : Int32) : (max a b).toInt = max a.toInt b.toInt := by
  rw [Int.max_def]
  simp only [← Int32.le_iff_toInt_le]
  exact apply_ite Int32.toInt (a ≤ b) b a

/-- Words add up to the sum if they hold it. -/
theorem effect_andThen {v w : WordEffect} (h : v.effect.sumsFit w.effect = true) :
    (v.andThen w).effect = v.effect.andThen w.effect := by
  obtain ⟨himpact, hmaximal⟩ := Effect.fits_iff.1 h
  have hadd (a b : Int32) (hab : (Int32.ofInt (a.toInt + b.toInt)).toInt = a.toInt + b.toInt) :
      (a + b).toInt = a.toInt + b.toInt := by
    rwa [Int32.ofInt_add, Int32.ofInt_toInt, Int32.ofInt_toInt] at hab
  rw [andThen, effect, toInt_max, hadd _ _ himpact, hadd _ _ hmaximal]
  rfl

end WordEffect

namespace Fragment

mutual

/-- The effect on the stack, in words. -/
def wordEffect : Fragment → WordEffect
  | op _ e => .of e
  | seq fs => totalWordEffect .zero fs
  | _ => .zero

/-- The effect of code with the first effect, followed by all fragments of a list, in words. -/
def totalWordEffect (w : WordEffect) : List Fragment → WordEffect
  | [] => w
  | f :: fs => totalWordEffect (w.andThen f.wordEffect) fs

end

mutual

/-- 32 bits hold the effect of each operation and every sum that is taken of them. -/
def sumsFit : Fragment → Bool
  | op _ e => e.fits
  | seq fs => totalSumsFit .zero fs
  | _ => true

/-- 32 bits hold every sum that is taken for code with the first effect, followed by all fragments
of a list. -/
def totalSumsFit (e : Effect) : List Fragment → Bool
  | [] => true
  | f :: fs => f.sumsFit && e.sumsFit f.effect && totalSumsFit (e.andThen f.effect) fs

end

mutual

/-- **Words that hold every sum hold the effect.** -/
theorem effect_wordEffect : (f : Fragment) → f.sumsFit = true → f.wordEffect.effect = f.effect
  | empty, _ | illegal, _ => rfl
  | op _ _, h => of_decide_eq_true h
  | seq fs, h => effect_totalWordEffect fs WordEffect.effect_zero h

theorem effect_totalWordEffect : (fs : List Fragment) → {w : WordEffect} → {e : Effect} →
    w.effect = e → totalSumsFit e fs = true → (totalWordEffect w fs).effect = totalEffect e fs
  | [], _, _, hw, _ => hw
  | f :: fs, w, e, hw, h => by
    rw [totalSumsFit, Bool.and_eq_true, Bool.and_eq_true] at h
    obtain ⟨⟨hf, hsums⟩, hrest⟩ := h
    rw [totalWordEffect, totalEffect]
    refine effect_totalWordEffect fs ?_ hrest
    rw [← hw, ← effect_wordEffect f hf] at hsums ⊢
    exact WordEffect.effect_andThen hsums

end

/-- The size of the stack that the fragment asks for, from heights in words. -/
def stackSize (f : Fragment) : Nat := min f.wordEffect.maximal.toInt.toNat Code.frameLimit

end Fragment

namespace Appender

mutual

/-- 32 bits hold every sum that is taken for the code of a method. -/
def sumsFit (m : Method) : Appender → Bool
  | fragment f => f.sumsFit
  | implementation i t => (i.fragment t m true).toOption.all Fragment.sumsFit
  | sequence as => allSumsFit m as

/-- 32 bits hold every sum that is taken for all appenders of a list. -/
def allSumsFit (m : Method) : List Appender → Bool
  | [] => true
  | a :: as => a.sumsFit m && allSumsFit m as

end

mutual

/-- The size of the stack for the code of a method, from heights in words. -/
def stackSize (m : Method) : Appender → Nat
  | fragment f => f.stackSize
  | implementation i t => (i.fragment t m true).toOption.elim 0 Fragment.stackSize
  | sequence as => maxStackSize m as

/-- The size of the stack that is enough for all appenders of a list. -/
def maxStackSize (m : Method) : List Appender → Nat
  | [] => 0
  | a :: as => max (a.stackSize m) (maxStackSize m as)

end

variable {m : Method}

theorem maxStack_of_codeOf {f : Fragment} {c : Code} (hf : f.sumsFit = true)
    (h : codeOf m f = .ok c) : c.maxStack = f.stackSize := by
  unfold codeOf at h
  split at h
  · obtain rfl := Except.ok.inj h
    rw [Fragment.stackSize, Code.of, ← Fragment.effect_wordEffect f hf]
    rfl
  · cases h

mutual

/-- **The stack of code that is written** has the size that comes from heights in words. -/
theorem maxStack_of_apply : {a : Appender} → {c : Code} → a.sumsFit m = true →
    a.apply m = .ok c → c.maxStack = a.stackSize m
  | fragment f, c, ha, h => maxStack_of_codeOf ha h
  | implementation i t, c, ha, h => by
    rw [apply] at h
    obtain ⟨f, hf, h⟩ := ok_of_bind h
    rw [sumsFit, hf] at ha
    rw [stackSize, hf]
    exact maxStack_of_codeOf ha h
  | sequence as, c, ha, h => by
    rw [apply] at h
    exact (maxStack_of_applyAll ha h).trans (Nat.zero_max _)

theorem maxStack_of_applyAll : {as : List Appender} → {c d : Code} → allSumsFit m as = true →
    applyAll m c as = .ok d → d.maxStack = max c.maxStack (maxStackSize m as)
  | [], c, d, _, h => by
    rw [applyAll] at h
    obtain rfl := Except.ok.inj h
    exact (Nat.max_zero _).symm
  | a :: as, c, d, has, h => by
    rw [applyAll] at h
    obtain ⟨next, hnext, h⟩ := ok_of_bind h
    rw [allSumsFit, Bool.and_eq_true] at has
    rw [maxStack_of_applyAll has.2 h, Code.andThen, maxStack_of_apply has.1 hnext, maxStackSize,
      Nat.max_assoc]

end

end Appender

end ClassForge
