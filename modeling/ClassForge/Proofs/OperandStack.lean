import ClassForge.ClassFile.Basic
import ClassForge.Implementation.Compile
import Mathlib.Data.List.Forall2

/-!
# Straight-line code, traced

What code without jumps does can be told without running it: every value on the stack was loaded
from a local variable, came out of a cast or was returned by a call. Tracing code keeps this for
each value, together with the calls that were made, so that it can be said of a call where its
arguments come from and of which types they are, as a verifier would infer them.

Only the instructions that forwarding needs are traced. Code with any other has no trace, and
neither has code that takes more from the stack than there is.

## Main definitions

* `Operand` — a value, by where it comes from
* `Frame.run`, `Trace` — code up to its return, and what it did
* `Operand.slot?`, `Operand.type?` — the local variable behind a value, and the type of the value
* `Trace.HandsOver` — parameters are handed over to one call
* `Trace.WellTyped` — arguments and results are of the types that are asked for

## Main results

* `Frame.run_flatMap` — fragments that push one value each push them all
* `Method.localType?_parameterOffset` — the local variable of a parameter has the parameter's type
-/

namespace ClassForge

/-- A value on the operand stack, by where it comes from. -/
inductive Operand where
  /-- From a local variable. -/
  | loaded (kind : ValueKind) (slot : Nat)
  | cast (type : TypeRef) (value : Operand)
  /-- From a call. -/
  | result (method : MethodRef)
deriving DecidableEq

/-- A call with what it took from the stack, in the order in which it was pushed. -/
structure Call where
  method : MethodRef
  operands : List Operand
deriving DecidableEq

/-- What code has done once it returned. -/
structure Trace where
  calls : List Call
  /-- The returned value, if there is one. -/
  returned : Option Operand
deriving DecidableEq

/-- The operand stack, top first, and the calls so far. -/
structure Frame where
  stack : List Operand := []
  calls : List Call := []

namespace Frame

/-- The frame with one more value. -/
def push (f : Frame) (v : Operand) : Frame := { f with stack := v :: f.stack }

/-- The frame after an instruction that does not return. -/
def step? (f : Frame) : Instruction → Option Frame
  | .load kind slot => some (f.push (.loaded kind slot))
  | .cast type =>
    match f.stack with
    | v :: vs => some { f with stack := .cast type v :: vs }
    | [] => none
  | .invoke dispatch m =>
    let taken := m.type.parameterTypes.length + if dispatch = .static then 0 else 1
    if taken ≤ f.stack.length then
      some
        { stack := (if m.type.returnType = .void then [] else [.result m]) ++ f.stack.drop taken
          calls := f.calls ++ [⟨m, (f.stack.take taken).reverse⟩] }
    else none
  | _ => none

/-- What the code does up to its return. -/
def run (f : Frame) : List Instruction → Option Trace
  | [] => none
  | .ret none :: _ => some ⟨f.calls, none⟩
  | .ret (some _) :: _ => f.stack.head?.map fun v => ⟨f.calls, some v⟩
  | i :: is => (f.step? i).bind (·.run is)

end Frame

/-- What the code of a written method does, if it has code that can be traced. -/
def WrittenMethod.trace? (w : WrittenMethod) : Option Trace :=
  w.code.bind fun c => Frame.run {} c.instructions

/-! ### Local variables and types -/

/-- Of types whose values lie one after the other from the slot `start` on, the one whose value is
at a slot. -/
def TypeRef.atSlot? (slot : Nat) : Nat → List TypeRef → Option TypeRef
  | _, [] => none
  | start, t :: ts => if slot = start then some t else atSlot? slot (start + t.slots) ts

/-- The erased type of the local variable that a method has at a slot when it is called. -/
def Method.localType? (m : Method) (slot : Nat) : Option TypeRef :=
  if m.isStatic = false ∧ slot = 0 then some (.named m.owner)
  else (TypeRef.atSlot? slot m.receiverSlots m.parameterTypes).map TypeRef.erasure

namespace Operand

/-- The slot of the local variable that the value is, casts aside. -/
def slot? : Operand → Option Nat
  | loaded _ slot => some slot
  | cast _ v => v.slot?
  | result _ => none

/-- The erased type of the value in the code of a method. A variable is loaded as what it is, and
only references are cast. -/
def type? (m : Method) : Operand → Option TypeRef
  | loaded kind slot => (m.localType? slot).filter (ValueKind.of · = some kind)
  | cast t v => (v.type? m).bind fun s => if s.isPrimitive || s.isVoid then none else some t
  | result method => some method.type.returnType

/-- The value cast to a type, where that is a class or an array. -/
def castTo (v : Operand) (t : TypeRef) : Operand :=
  match t.erasure with
  | .named name => .cast (.named name) v
  | .array component => .cast (.array component) v
  | _ => v

end Operand

@[simp] theorem ValueKind.of_erasure (t : TypeRef) : ValueKind.of t.erasure = ValueKind.of t := by
  simp [ValueKind.of]

theorem ValueKind.of_eq_none_iff {t : TypeRef} : ValueKind.of t = none ↔ t.erasure = .void := by
  unfold ValueKind.of
  cases t.erasure with
  | primitive p => cases p <;> simp [ofErased]
  | _ => simp [ofErased]

theorem TypeRef.slots_pos {t : TypeRef} {kind : ValueKind} (h : ValueKind.of t = some kind) :
    0 < t.slots := by
  cases t with
  | void => cases h
  | primitive p =>
    rw [slots]
    split <;> omega
  | named _ | parameterized _ _ | typeVar _ _ | array _ | target => exact Nat.one_pos

namespace Trace

/-- One call is made, to the method and on the receiver, and its arguments are the parameters of `m`
in their order, casts aside. -/
def HandsOver (m : Method) (method : MethodRef) (trace : Trace) : Prop :=
  ∃ args, trace.calls = [⟨method, .loaded .reference 0 :: args⟩] ∧
    args.map (·.slot?) = (List.range method.type.parameterTypes.length).map fun i =>
      some (m.parameterOffset i)

/-- The code of `m` hands over values of the types that calls ask for, and what it returns may be
used as what the method returns. -/
structure WellTyped (p : Pool) (m : Method) (trace : Trace) : Prop where
  calls : ∀ c ∈ trace.calls,
    c.operands.tail.map (·.type? m) = c.method.type.parameterTypes.map some
  returned : ∀ v ∈ trace.returned,
    (v.type? m).any (fun t => (assign? p t m.returnType).isSome) = true
  void : trace.returned = none ↔ m.returnType.erasure = .void

instance (p : Pool) (m : Method) (trace : Trace) : Decidable (trace.WellTyped p m) :=
  decidable_of_iff
    ((∀ c ∈ trace.calls,
        c.operands.tail.map (·.type? m) = c.method.type.parameterTypes.map some) ∧
      (∀ v ∈ trace.returned,
        (v.type? m).any (fun t => (assign? p t m.returnType).isSome) = true) ∧
      (trace.returned = none ↔ m.returnType.erasure = .void))
    ⟨fun h => ⟨h.1, h.2.1, h.2.2⟩, fun h => ⟨h.calls, h.returned, h.void⟩⟩

end Trace

/-- Values of consecutive slots are where those before them end. -/
theorem TypeRef.atSlot?_add_totalSlots {ts : List TypeRef} (hts : ∀ t ∈ ts, 0 < t.slots)
    (start : Nat) {i : Nat} (hi : i < ts.length) :
    atSlot? (start + totalSlots (ts.take i)) start ts = some ts[i] := by
  induction ts generalizing start i with
  | nil => cases hi
  | cons t ts ih =>
    rw [List.forall_mem_cons] at hts
    cases i with
    | zero => simp [atSlot?, totalSlots]
    | succ i =>
      have hne : start + totalSlots ((t :: ts).take (i + 1)) ≠ start := by
        have := hts.1
        rw [List.take_succ_cons, totalSlots]
        omega
      rw [atSlot?, if_neg hne, List.take_succ_cons, totalSlots, ← Nat.add_assoc]
      exact ih hts.2 _ (Nat.lt_of_succ_lt_succ hi)

namespace Method

/-- A parameter ends where the next one starts. -/
theorem parameterOffset_succ {m : Method} {i : Nat} {t : TypeRef}
    (h : m.parameterTypes[i]? = some t) :
    m.parameterOffset (i + 1) = m.parameterOffset i + t.slots := by
  rw [parameterOffset, parameterOffset, List.take_add_one, h, TypeRef.totalSlots_append]
  simp [TypeRef.totalSlots, Nat.add_assoc]

/-- No parameter starts behind the frame. -/
theorem parameterOffset_le_frameSize (m : Method) (i : Nat) :
    m.parameterOffset i ≤ m.frameSize := by
  have hsplit : TypeRef.totalSlots m.parameterTypes =
      TypeRef.totalSlots (m.parameterTypes.take i) +
        TypeRef.totalSlots (m.parameterTypes.drop i) := by
    rw [← TypeRef.totalSlots_append, List.take_append_drop]
  rw [parameterOffset, frameSize]
  omega

/-- **The local variable of a parameter** has the type of the parameter. -/
theorem localType?_parameterOffset {m : Method} (hm : ∀ t ∈ m.parameterTypes, 0 < t.slots)
    {i : Nat} (hi : i < m.parameterTypes.length) :
    m.localType? (m.parameterOffset i) = some m.parameterTypes[i].erasure := by
  have hparameter : ¬(m.isStatic = false ∧ m.parameterOffset i = 0) := by
    rintro ⟨hstatic, hzero⟩
    rw [parameterOffset, receiverSlots, hstatic] at hzero
    simp at hzero
  rw [localType?, if_neg hparameter, parameterOffset, TypeRef.atSlot?_add_totalSlots hm _ hi]
  rfl

end Method

/-! ### Fragments that push a value -/

namespace Fragment

/-- Running the fragment amounts to pushing the value. -/
def Pushes (f : Fragment) (v : Operand) : Prop :=
  ∀ (frame : Frame) (is : List Instruction),
    frame.run (f.instructions ++ is) = (frame.push v).run is

theorem flatMap_parts (f : Fragment) : f.parts.flatMap instructions = f.instructions := by
  cases f with
  | empty | illegal | op _ _ => simp [parts, instructions]
  | seq fs => simp [parts]

@[simp] theorem instructions_join (fs : List Fragment) :
    (join fs).instructions = fs.flatMap instructions := by
  rw [join, instructions_seq, List.flatMap_assoc]
  simp only [flatMap_parts]

@[simp] theorem isLegal_join (fs : List Fragment) : (join fs).isLegal = fs.all isLegal := by
  have hparts (f : Fragment) : f.parts.all isLegal = f.isLegal := by
    cases f with
    | empty | illegal | op _ _ => simp [parts, isLegal]
    | seq fs => simp [parts]
  rw [join, isLegal_seq, List.all_flatMap]
  simp only [hparts]

theorem pushes_loadThis : loadThis.Pushes (.loaded .reference 0) :=
  fun _ _ => rfl

theorem pushes_load {t : TypeRef} {slot : Nat} (h : (load t slot).isLegal = true) :
    ∃ kind, ValueKind.of t = some kind ∧ (load t slot).Pushes (.loaded kind slot) := by
  unfold load at h ⊢
  cases hkind : ValueKind.of t with
  | none =>
    rw [hkind] at h
    cases h
  | some kind => exact ⟨kind, rfl, fun _ _ => rfl⟩

theorem Pushes.cast {f : Fragment} {v : Operand} (h : f.Pushes v) (t : TypeRef) :
    (join [f, cast t]).Pushes (v.castTo t) := by
  intro frame is
  rw [instructions_join, List.flatMap_cons, List.flatMap_singleton, List.append_assoc, h]
  unfold Fragment.cast Operand.castTo
  cases t.erasure <;> rfl

end Fragment

/-- **Fragments that push one value each** push them all, the last on top. -/
theorem Frame.run_flatMap {fs : List Fragment} {vs : List Operand}
    (h : List.Forall₂ Fragment.Pushes fs vs) (frame : Frame) (is : List Instruction) :
    frame.run (fs.flatMap Fragment.instructions ++ is) =
      Frame.run { frame with stack := vs.reverse ++ frame.stack } is := by
  induction h generalizing frame with
  | nil => rfl
  | @cons f v fs vs hf _ ih =>
    rw [List.flatMap_cons, List.append_assoc, hf, ih, List.reverse_cons, List.append_assoc]
    rfl

theorem Frame.run_invoke (f : Frame) (dispatch : Dispatch) (m : MethodRef) (is : List Instruction) :
    f.run (.invoke dispatch m :: is) = (f.step? (.invoke dispatch m)).bind (·.run is) :=
  rfl

/-- A call with a receiver that takes the whole stack. -/
theorem Frame.step?_invoke {dispatch : Dispatch} (hdispatch : dispatch ≠ .static) {m : MethodRef}
    {receiver : Operand} {args : List Operand} {calls : List Call}
    (hargs : args.length = m.type.parameterTypes.length) :
    Frame.step? ⟨args.reverse ++ [receiver], calls⟩ (.invoke dispatch m) =
      some ⟨if m.type.returnType = .void then [] else [.result m],
        calls ++ [⟨m, receiver :: args⟩]⟩ := by
  have htaken : (args.reverse ++ [receiver]).length = m.type.parameterTypes.length + 1 := by
    simp [hargs]
  simp only [step?, if_neg hdispatch, ← htaken, Nat.le_refl, if_true, List.drop_length,
    List.take_length, List.append_nil, List.reverse_append, List.reverse_reverse]
  rfl

end ClassForge
