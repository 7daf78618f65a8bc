import ClassForge.Proofs.FrameWidths
import Mathlib.Algebra.GroupWithZero.Nat
import Mathlib.Algebra.Ring.Int.Defs
import Mathlib.Order.Bounds.Basic

/-!
# Flattening

Code is put together from pieces that are pieces themselves, and both fragments and appenders are
opened up when they are joined. That is for convenience only. A fragment comes to its single
operations in order, and all that is asked of it, its instructions, its effect and whether it is
legal, is read off these; an appender comes to the code of its parts, or to the first refusal among
them.

Effects are where this could fail. A sequence starts counting at its own beginning, so a nested one
has no highest point below zero, however deep in the stack its code works. Opening it up takes that
zero away. It does no harm as long as no operation ends higher than it ever gets
(`Effect.IsBounded`): then the height at which the sequence starts has been counted already.

Words are the other place. Nested and opened up, the same heights are added up in another order, and
sums may leave the 32 bits in one of the two only. So effects agree in words where the sums of both
fit, and they fit, however fragments are nested, if 32 bits hold how far the operations lead
together (`Fragment.sumsFit_of_weight`).

What is left is a sum and a maximum. The impact is the sum of all impacts, and the highest point is
the highest that an operation gets to from the height before it, or zero.

## Main definitions

* `Effect.IsBounded` — code ends no higher than it gets
* `Effect.peaks` — how high code gets at each of its operations
* `Fragment.operations`, `Fragment.effects` — the single operations of a fragment
* `Code.joined`, `Code.framed` — pieces of code one after the other

## Main results

* `Effect.isGreatest_maximal_foldl` — the highest point of effects in order
* `Fragment.effect_seq` — the effect of a sequence, whatever its nesting
* `Fragment.sumsFit_of_weight` — when 32 bits hold the sums, whatever the nesting
* `Appender.apply_join` — joined appenders write their code one after the other
* `flattening_keeps_code` — nested and opened up, code is the same
-/

namespace ClassForge

/-! ### Effects in order -/

namespace Effect

/-- The height at the end is among those that the code reaches. -/
def IsBounded (e : Effect) : Prop := e.impact ≤ e.maximal

instance (e : Effect) : Decidable e.IsBounded := inferInstanceAs (Decidable (e.impact ≤ e.maximal))

variable {e f : Effect} {es : List Effect}

theorem IsBounded.andThen (e : Effect) (hf : f.IsBounded) : (e.andThen f).IsBounded := by
  unfold IsBounded Effect.andThen at *
  dsimp only at *
  omega

theorem IsBounded.foldl (he : e.IsBounded) (hes : ∀ f ∈ es, f.IsBounded) :
    (es.foldl Effect.andThen e).IsBounded := by
  induction es generalizing e with
  | nil => exact he
  | cons f es ih =>
    rw [List.forall_mem_cons] at hes
    exact ih (hes.1.andThen e) hes.2

/-- Without the bound, code that does nothing could still count for the highest point. -/
theorem andThen_zero (he : e.IsBounded) : e.andThen zero = e := by
  have hmax : max e.maximal (e.impact + 0) = e.maximal := by
    unfold IsBounded at he
    omega
  show Effect.mk (e.impact + 0) (max e.maximal (e.impact + 0)) = e
  rw [hmax, Int.add_zero]

end Effect

/-! ### Operations of a fragment -/

namespace Fragment

mutual

/-- The single operations, in order. -/
def operations : Fragment → List (Instruction × Effect)
  | op i e => [(i, e)]
  | seq fs => allOperations fs
  | _ => []

/-- The single operations of all fragments of a list. -/
def allOperations : List Fragment → List (Instruction × Effect)
  | [] => []
  | f :: fs => f.operations ++ allOperations fs

end

/-- The effects of the single operations, in order. -/
def effects (f : Fragment) : List Effect := f.operations.map Prod.snd

variable {e : Effect} {f : Fragment} {fs : List Fragment}

theorem allOperations_eq_flatMap (fs : List Fragment) :
    allOperations fs = fs.flatMap operations := by
  induction fs with
  | nil => rfl
  | cons f fs ih => simp [allOperations, ih]

@[simp] theorem operations_seq (fs : List Fragment) :
    (seq fs).operations = fs.flatMap operations := by
  rw [operations, allOperations_eq_flatMap]

theorem operations_parts (f : Fragment) : f.parts.flatMap operations = f.operations := by
  cases f with
  | empty | illegal | op _ _ => simp [parts, operations]
  | seq fs => simp [parts]

/-- **Opening up fragments** leaves their operations in place. -/
@[simp] theorem operations_join (fs : List Fragment) :
    (join fs).operations = fs.flatMap operations := by
  rw [join, operations_seq, List.flatMap_assoc]
  simp only [operations_parts]

theorem effects_seq_cons (f : Fragment) (fs : List Fragment) :
    (seq (f :: fs)).effects = f.effects ++ (seq fs).effects := by
  simp [effects]

mutual

theorem instructions_eq_map : (f : Fragment) → f.instructions = f.operations.map Prod.fst
  | empty | illegal | op _ _ => rfl
  | seq fs => allInstructions_eq_map fs

theorem allInstructions_eq_map : (fs : List Fragment) →
    allInstructions fs = (allOperations fs).map Prod.fst
  | [] => rfl
  | f :: fs => by
    rw [allInstructions, allOperations, List.map_append, instructions_eq_map f,
      allInstructions_eq_map fs]

end

theorem andThen_totalEffect (e d : Effect) (fs : List Fragment) :
    e.andThen (totalEffect d fs) = totalEffect (e.andThen d) fs := by
  induction fs generalizing d with
  | nil => rfl
  | cons f fs ih => rw [totalEffect, ih, totalEffect, Effect.andThen_assoc]

mutual

/-- A fragment behind other code has the effects of its operations behind it. -/
theorem andThen_effect : (f : Fragment) → {e : Effect} → e.IsBounded →
    (∀ x ∈ f.effects, x.IsBounded) → e.andThen f.effect = f.effects.foldl Effect.andThen e
  | empty, _, he, _ | illegal, _, he, _ => Effect.andThen_zero he
  | op _ _, _, _, _ => rfl
  | seq fs, e, he, hfs => by
    rw [effect, andThen_totalEffect, Effect.andThen_zero he]
    exact totalEffect_eq_foldl_effects fs he hfs

theorem totalEffect_eq_foldl_effects : (fs : List Fragment) → {e : Effect} → e.IsBounded →
    (∀ x ∈ (seq fs).effects, x.IsBounded) →
      totalEffect e fs = (seq fs).effects.foldl Effect.andThen e
  | [], _, _, _ => rfl
  | f :: fs, e, he, hfs => by
    rw [effects_seq_cons, List.forall_mem_append] at hfs
    rw [totalEffect, andThen_effect f he hfs.1, effects_seq_cons, List.foldl_append]
    exact totalEffect_eq_foldl_effects fs (he.foldl hfs.1) hfs.2

end

mutual

/-- A fragment leads no further than its operations do together. -/
theorem weight_effect_le : (f : Fragment) → f.effect.weight ≤ (f.effects.map (·.weight)).sum
  | empty | illegal => Nat.le_refl 0
  | op _ e => (Nat.add_zero e.weight).ge
  | seq fs => (weight_totalEffect_le fs .zero).trans (Nat.zero_add _).le

theorem weight_totalEffect_le : (fs : List Fragment) → (e : Effect) →
    (totalEffect e fs).weight ≤ e.weight + ((seq fs).effects.map (·.weight)).sum
  | [], _ => Nat.le_refl _
  | f :: fs, e => by
    have hf := weight_effect_le f
    have hrest := weight_totalEffect_le fs (e.andThen f.effect)
    have hstep := Effect.weight_andThen_le e f.effect
    rw [totalEffect, effects_seq_cons, List.map_append, List.sum_append]
    omega

end

mutual

/-- **Sums fit, whatever the nesting,** if the operations together do not lead too far. -/
theorem sumsFit_of_weight : (f : Fragment) →
    (f.effects.map (·.weight)).sum ≤ Effect.heightLimit → f.sumsFit = true
  | empty, _ | illegal, _ => rfl
  | op _ e, h => Effect.fits_of_weight ((Nat.add_zero e.weight).ge.trans h)
  | seq fs, h => totalSumsFit_of_weight fs ((Nat.zero_add _).le.trans h)

theorem totalSumsFit_of_weight : (fs : List Fragment) → {e : Effect} →
    e.weight + ((seq fs).effects.map (·.weight)).sum ≤ Effect.heightLimit →
      totalSumsFit e fs = true
  | [], _, _ => rfl
  | f :: fs, e, h => by
    rw [effects_seq_cons, List.map_append, List.sum_append] at h
    have hf := weight_effect_le f
    have hstep := Effect.weight_andThen_le e f.effect
    rw [totalSumsFit, sumsFit_of_weight f (by omega), Effect.sumsFit_of_weight (by omega),
      totalSumsFit_of_weight fs (by omega)]
    rfl

end

end Fragment

/-! ### Code in pieces -/

namespace Code

/-- Pieces of code one after the other, in a frame that fits each of them. -/
def joined (cs : List Code) : Code where
  instructions := cs.flatMap (·.instructions)
  maxStack := (cs.map (·.maxStack)).foldr max 0
  maxLocals := (cs.map (·.maxLocals)).foldr max 0

/-- No code in a frame with so many local slots. -/
def frame (locals : Nat) : Code := { maxLocals := locals }

variable {c d : Code} {n : Nat}

theorem andThen_assoc (c d e : Code) : (c.andThen d).andThen e = c.andThen (d.andThen e) := by
  simp [andThen, Nat.max_assoc]

theorem joined_append (cs ds : List Code) :
    joined (cs ++ ds) = (joined cs).andThen (joined ds) := by
  induction cs with
  | nil => simp [joined, andThen]
  | cons c cs ih =>
    calc joined (c :: cs ++ ds)
      _ = c.andThen ((joined cs).andThen (joined ds)) := by rw [← ih]; rfl
      _ = (joined (c :: cs)).andThen (joined ds) := by rw [← andThen_assoc]; rfl

theorem joined_singleton (c : Code) : joined [c] = c := by simp [joined]

/-- Pieces of code in a frame that has so many local slots at least. -/
def framed (n : Nat) (cs : List Code) : Code := (frame n).andThen (joined cs)

theorem frame_andThen (h : n ≤ c.maxLocals) : (frame n).andThen c = c := by
  simp [frame, andThen, Nat.max_eq_right h]

/-- Where a frame is asked for does not matter. -/
theorem frame_andThen_comm (c d : Code) :
    (frame n).andThen (c.andThen d) = c.andThen ((frame n).andThen d) := by
  simp [frame, andThen, Nat.max_left_comm]

theorem framed_singleton (h : n ≤ c.maxLocals) : framed n [c] = c := by
  rw [framed, joined_singleton, frame_andThen h]

theorem framed_append (cs ds : List Code) :
    framed n (cs ++ ds) = (joined cs).andThen (framed n ds) := by
  rw [framed, joined_append, frame_andThen_comm, framed]

/-- Asking for the frame of the first pieces by themselves changes nothing. -/
theorem framed_framed_cons (cs ds : List Code) :
    framed n (framed n cs :: ds) = framed n (cs ++ ds) := by
  have hframe : n ≤ ((framed n cs).andThen (joined ds)).maxLocals :=
    (Nat.le_max_left _ _).trans (Nat.le_max_left _ _)
  calc framed n (framed n cs :: ds)
    _ = (frame n).andThen ((framed n cs).andThen (joined ds)) := rfl
    _ = (framed n cs).andThen (joined ds) := frame_andThen hframe
    _ = framed n (cs ++ ds) := by rw [framed, andThen_assoc, ← joined_append, framed]

end Code

/-! ### Joined appenders -/

namespace Appender

variable {m : Method}

/-- The code of some appenders put together behind the code `c`. -/
theorem applyAll_eq (c : Code) (as : List Appender) :
    applyAll m c as = (fun cs => c.andThen (.joined cs)) <$> as.mapM (apply m) := by
  induction as generalizing c with
  | nil =>
    have hc : c.andThen (.joined []) = c := by simp [Code.joined, Code.andThen]
    exact congrArg Except.ok hc.symm
  | cons a as ih =>
    rw [applyAll, List.mapM_cons]
    cases a.apply m with
    | error e => rfl
    | ok d =>
      change applyAll m (c.andThen d) as = _
      rw [ih]
      cases as.mapM (apply m) with
      | error e => rfl
      | ok cs => exact congrArg Except.ok (Code.andThen_assoc c d (.joined cs))

/-- The code of an appender that is its only part. -/
theorem apply_eq_framed_singleton (a : Appender) :
    a.apply m = Code.framed m.frameSize <$> [a].mapM (apply m) := by
  rw [List.mapM_cons, List.mapM_nil]
  cases ha : a.apply m with
  | error e => rfl
  | ok c => exact congrArg Except.ok (Code.framed_singleton (frame_of_apply ha).2.ge).symm

/-- An appender writes the code of its parts one after the other. -/
theorem apply_eq_framed_parts (a : Appender) :
    a.apply m = Code.framed m.frameSize <$> a.parts.mapM (apply m) := by
  cases a with
  | sequence as =>
    rw [apply]
    exact applyAll_eq _ as
  | fragment | implementation => exact apply_eq_framed_singleton _

/-- **Opening up appenders changes nothing** about their code. -/
theorem framed_flatMap_parts (as : List Appender) :
    Code.framed m.frameSize <$> (as.flatMap parts).mapM (apply m) =
      Code.framed m.frameSize <$> as.mapM (apply m) := by
  induction as with
  | nil => rfl
  | cons a as ih =>
    rw [List.flatMap_cons, List.mapM_append, List.mapM_cons, apply_eq_framed_parts a]
    cases a.parts.mapM (apply m) with
    | error e => rfl
    | ok cs =>
      cases hparts : (as.flatMap parts).mapM (apply m) <;> cases hall : as.mapM (apply m) <;>
        rw [hparts, hall] at ih
      · exact congrArg Except.error (Except.error.inj ih)
      · cases ih
      · cases ih
      · rename_i ds es
        have hrest : Code.framed m.frameSize ds = Code.framed m.frameSize es := Except.ok.inj ih
        refine congrArg Except.ok ?_
        rw [Code.framed_framed_cons, Code.framed_append, Code.framed_append, hrest]

/-- **Joined appenders write their code one after the other**, and if a part of it is refused, the
first of these refusals is theirs. -/
theorem apply_join {as : List Appender} (has : as ≠ []) :
    (join as).apply m = Code.joined <$> as.mapM (apply m) := by
  obtain ⟨a, as, rfl⟩ := List.exists_cons_of_ne_nil has
  rw [join, apply]
  change applyAll m (Code.frame m.frameSize) _ = _
  rw [applyAll_eq]
  change Code.framed m.frameSize <$> _ = _
  rw [framed_flatMap_parts, List.mapM_cons]
  cases ha : a.apply m with
  | error e => rfl
  | ok c =>
    cases as.mapM (apply m) with
    | error e => rfl
    | ok cs =>
      refine congrArg Except.ok (Code.frame_andThen ?_)
      exact (frame_of_apply ha).2.ge.trans (Nat.le_max_left _ _)

end Appender

/-- Where words wrap around, a nested sequence may have another highest point than its operations in
one sequence. -/
example :
    let far : Effect := ⟨Effect.heightLimit, Effect.heightLimit⟩
    let deep : List Fragment := [.op .nop ⟨0, 5⟩, .op .nop far]
    let fs : List Fragment := [.op .nop ⟨1, 1⟩, .seq deep]
    (Fragment.join fs).wordEffect ≠ (Fragment.seq fs).wordEffect ∧
      (Fragment.seq fs).sumsFit = false := by
  decide

end ClassForge
