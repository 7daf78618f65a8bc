import ClassForge.Proofs.OperandStack
import ClassForge.Proofs.Outcomes

/-!
# Checking code by value kinds

Code is checked before it runs. No instruction may take more from the stack than there is, or a
value of another kind than it works on; none may load a local variable that does not hold a value of
the kind that it names; and neither stack nor local variables may leave the frame of the method.
Where there are no jumps, one pass does this. It carries the kinds of the values on the stack along,
and it ends where the method is left: what stands behind a return or a throw never runs.

The size of the stack is no result of this pass. It comes from the effects that fragments declare,
so that for each fragment two things have to agree, what its instructions do to the kinds on the
stack and what its effect says about heights. `Fragment.Moves` and `Fragment.Exits` say both at
once, and for whatever code follows, so that fragments in order can be put together.

## Local variables

Nothing is stored into local variables, which therefore hold what the method was called with. Code
with a store does not pass.

## Main definitions

* `Checker.run` — the pass over code, with the way the method is left as its outcome
* `Code.Verifies` — the code of a method passes
* `Fragment.Moves`, `Fragment.Exits` — a fragment leads from one stack to another, or out of the
  method

## Main results

* `Fragment.Moves.cons`, `Fragment.Moves.cons_exits`, `Fragment.Exits.cons_unreached` — fragments in
  order
* `Fragment.moves_load_parameter`, `Fragment.moves_invokeOn`, `Fragment.exits_ret`, … — what single
  fragments do
-/

namespace ClassForge

/-! ### The pass -/

/-- The kind of value that the elements of an array are on the stack. -/
def ElementKind.valueKind : ElementKind → ValueKind
  | byte | short | char | int => .int
  | long => .long
  | float => .float
  | double => .double
  | reference => .reference

/-- The kind of the local variable that a method has at a slot when it is called. -/
def Method.localKind? (m : Method) (slot : Nat) : Option ValueKind :=
  (m.localType? slot).bind ValueKind.of

namespace ValueKind

/-- The slots that values take on the stack. -/
def height : List ValueKind → Nat
  | [] => 0
  | kind :: stack => kind.slots + height stack

@[simp] theorem height_nil : height [] = 0 := rfl

@[simp] theorem height_cons (kind : ValueKind) (stack : List ValueKind) :
    height (kind :: stack) = kind.slots + height stack := rfl

@[simp] theorem height_append (stack stack' : List ValueKind) :
    height (stack ++ stack') = height stack + height stack' := by
  induction stack with
  | nil => simp
  | cons kind stack ih => simp [ih, Nat.add_assoc]

@[simp] theorem height_reverse (stack : List ValueKind) : height stack.reverse = height stack := by
  induction stack with
  | nil => rfl
  | cons kind stack ih => simp [ih, Nat.add_comm]

/-- The values that take exactly so many slots on top of the stack. -/
def top? : Nat → List ValueKind → Option (List ValueKind)
  | 0, _ => some []
  | _ + 1, [] => none
  | n + 1, kind :: stack =>
    if kind.slots ≤ n + 1 then (top? (n + 1 - kind.slots) stack).map (kind :: ·) else none
termination_by structural _ stack => stack

/-- No value takes more than two slots. -/
theorem height_le (stack : List ValueKind) : height stack ≤ 2 * stack.length := by
  induction stack with
  | nil => exact Nat.le_refl 0
  | cons kind stack ih =>
    have hkind : kind.slots ≤ 2 := by cases kind <;> decide
    rw [height_cons, List.length_cons]
    omega

end ValueKind

/-- How code leaves a method. -/
inductive Exit where
  | threw
  /-- With a value of the kind, or without one. -/
  | returned (kind : Option ValueKind)
deriving DecidableEq

/-- Whether the method may be left that way. -/
def Exit.fits (m : Method) : Exit → Bool
  | threw => true
  | returned kind => kind = ValueKind.of m.returnType

/-- What code is checked against: its method and the size of its frame. -/
structure Checker where
  method : Method
  maxStack : Nat
  maxLocals : Nat

/-- The checker for a method with so many slots of stack, and with local variables for the receiver
and the parameters. -/
def Method.checker (m : Method) (maxStack : Nat) : Checker := ⟨m, maxStack, m.frameSize⟩

namespace Checker

variable (c : Checker)

/-- What an instruction takes from the stack, and what it leaves there in return, both top first.
There is no answer for an instruction that cannot run, or that leaves the method. -/
def exchange? (stack : List ValueKind) :
    Instruction → Option (List ValueKind × List ValueKind)
  | .nop => some ([], [])
  | .pushNull | .pushText _ | .pushClass _ | .new _ => some ([], [.reference])
  | .pushInt _ => some ([], [.int])
  | .pushLong _ => some ([], [.long])
  | .pushFloatZero => some ([], [.float])
  | .pushDoubleZero => some ([], [.double])
  | .load kind slot =>
    if c.method.localKind? slot = some kind ∧ slot + kind.slots ≤ c.maxLocals then
      some ([], [kind])
    else none
  | .loadElement kind => some ([.int, .reference], [kind.valueKind])
  | .storeElement kind => some ([kind.valueKind, .int, .reference], [])
  | .arrayLength => some ([.reference], [.int])
  | .dup => (ValueKind.top? 1 stack).map fun top => (top, top ++ top)
  | .dup2 => (ValueKind.top? 2 stack).map fun top => (top, top ++ top)
  | .pop => (ValueKind.top? 1 stack).map (·, [])
  | .pop2 => (ValueKind.top? 2 stack).map (·, [])
  | .cast _ => some ([.reference], [.reference])
  | .invoke dispatch m => do
    let arguments ← m.type.parameterTypes.mapM ValueKind.ofErased
    let receiver := if dispatch = .static then [] else [.reference]
    some (arguments.reverse ++ receiver, (ValueKind.ofErased m.type.returnType).toList)
  | .getField f => (ValueKind.ofErased f.type).map fun kind => ([.reference], [kind])
  | .putField f => (ValueKind.ofErased f.type).map fun kind => ([kind, .reference], [])
  | .getStatic f => (ValueKind.ofErased f.type).map fun kind => ([], [kind])
  | .putStatic f => (ValueKind.ofErased f.type).map fun kind => ([kind], [])
  | .store _ _ | .throw | .ret _ => none

/-- The stack after an instruction that stays in the method, if it can run and the stack still fits
the frame. -/
def step? (stack : List ValueKind) (i : Instruction) : Option (List ValueKind) := do
  let (takes, leaves) ← c.exchange? stack i
  let rest ← stack.dropPrefix? takes
  if ValueKind.height (leaves ++ rest) ≤ c.maxStack then some (leaves ++ rest) else none

/-- How the code leaves the method, if it does and every instruction up to there can run. -/
def run (stack : List ValueKind) : List Instruction → Option Exit
  | [] => none
  | .throw :: _ => (stack.dropPrefix? [.reference]).map fun _ => .threw
  | .ret kind :: _ => (stack.dropPrefix? kind.toList).map fun _ => .returned kind
  | i :: is => (c.step? stack i).bind fun next => run next is

variable {c}

/-- An instruction that takes what lies on top. -/
theorem run_cons {i : Instruction} {takes leaves rest : List ValueKind}
    (h : c.exchange? (takes ++ rest) i = some (takes, leaves))
    (hfits : ValueKind.height (leaves ++ rest) ≤ c.maxStack) (is : List Instruction) :
    c.run (takes ++ rest) (i :: is) = c.run (leaves ++ rest) is := by
  have hrest : (takes ++ rest).dropPrefix? takes = some rest :=
    List.dropPrefix?_append_of_beq rest (beq_self_eq_true takes)
  have hstep : c.step? (takes ++ rest) i = some (leaves ++ rest) := by
    simp only [step?, h, hrest, Option.bind_eq_bind, Option.bind_some, if_pos hfits]
  have hrun : c.run (takes ++ rest) (i :: is) =
      (c.step? (takes ++ rest) i).bind fun next => c.run next is := by
    cases i with
    | throw | ret _ => cases h
    | _ => rfl
  rw [hrun, hstep, Option.bind_some]

end Checker

/-- The code can run in its frame as the code of the method: no instruction misses a value or finds
one of another kind, stack and local variables stay in the frame, and the code ends in a throw or in
the return of the method. -/
def Code.Verifies (m : Method) (code : Code) : Prop :=
  ∃ exit : Exit, exit.fits m = true ∧
    Checker.run ⟨m, code.maxStack, code.maxLocals⟩ [] code.instructions = some exit

instance (m : Method) (code : Code) : Decidable (code.Verifies m) :=
  let exit? := Checker.run ⟨m, code.maxStack, code.maxLocals⟩ [] code.instructions
  decidable_of_iff (exit?.any (·.fits m) = true) <| by
    rw [Option.any_eq_true]
    exact exists_congr fun _ => and_comm

/-! ### Types and kinds -/

/-- A type variable stands for references: it is not bound by a primitive type or `void`. -/
def TypeRef.HasReferenceBound : TypeRef → Prop
  | typeVar _ bound => ValueKind.of bound = some .reference
  | _ => True

instance : DecidablePred TypeRef.HasReferenceBound := fun t => by
  cases t <;> unfold TypeRef.HasReferenceBound <;> infer_instance

theorem Method.kinds_erasedParameterTypes (m : Method) :
    m.erasedParameterTypes.map ValueKind.ofErased = m.parameterTypes.map ValueKind.of := by
  rw [← m.map_erasure_parameterTypes, List.map_map]
  rfl

/-- The type variables in the result and the parameters of the method stand for references. -/
structure Method.HasReferenceBounds (m : Method) : Prop where
  returnType : m.returnType.HasReferenceBound
  parameterTypes : ∀ t ∈ m.parameterTypes, t.HasReferenceBound

instance : DecidablePred Method.HasReferenceBounds := fun m =>
  decidable_of_iff (m.returnType.HasReferenceBound ∧ ∀ t ∈ m.parameterTypes, t.HasReferenceBound)
    ⟨fun h => ⟨h.1, h.2⟩, fun h => ⟨h.returnType, h.parameterTypes⟩⟩

namespace TypeRef

variable {t : TypeRef}

/-- The slots of a type are those of its values. -/
theorem slots_eq_height (h : t.HasReferenceBound) :
    t.slots = ValueKind.height (ValueKind.of t).toList := by
  cases t with
  | typeVar symbol bound =>
    have hkind : ValueKind.of (typeVar symbol bound) = some .reference := h
    rw [hkind]
    rfl
  | primitive p => cases p <;> rfl
  | void | named _ | parameterized _ _ | array _ | target => rfl

theorem slots_of_kind {kind : ValueKind} (h : t.HasReferenceBound)
    (hkind : ValueKind.of t = some kind) : t.slots = kind.slots := by
  rw [slots_eq_height h, hkind]
  rfl

/-- Values of types take the slots of values of their kinds. -/
theorem totalSlots_eq_height {ts : List TypeRef} {kinds : List ValueKind}
    (hts : ∀ t ∈ ts, t.HasReferenceBound) (hkinds : ts.map ValueKind.of = kinds.map some) :
    totalSlots ts = ValueKind.height kinds := by
  induction ts generalizing kinds with
  | nil =>
    obtain rfl := List.map_eq_nil_iff.1 hkinds.symm
    rfl
  | cons t ts ih =>
    obtain ⟨kind, rest, rfl, hkind, hrest⟩ := List.map_eq_cons_iff.1 hkinds.symm
    rw [List.forall_mem_cons] at hts
    rw [totalSlots, slots_eq_height hts.1, ← hkind, ih hts.2 hrest.symm]
    simp

/-- Only `void` has no values, if type variables stand for references. -/
theorem eq_void_of_kind (h : t.HasReferenceBound) (hkind : ValueKind.of t = none) : t = void := by
  cases t with
  | typeVar _ bound => cases (show ValueKind.of bound = some .reference from h).symm.trans hkind
  | primitive p => cases p <;> cases hkind
  | void => rfl
  | named _ | parameterized _ _ | array _ | target => cases hkind

/-- Attaching a member to a type does not change the kinds of its values. -/
theorem kind_attach (owner : String) :
    (t : TypeRef) → ValueKind.of (t.attach owner) = ValueKind.of t
  | typeVar _ bound => by
    have ih := kind_attach owner bound
    rwa [attach]
  | void | primitive _ | named _ | parameterized _ _ | array _ | target => by
    simp [attach, ValueKind.of, ValueKind.ofErased]

theorem hasReferenceBound_attach (owner : String) (h : t.HasReferenceBound) :
    (t.attach owner).HasReferenceBound := by
  cases t with
  | typeVar _ bound =>
    have hbound : ValueKind.of bound = some .reference := h
    rw [attach]
    exact (kind_attach owner bound).trans hbound
  | void | primitive _ | named _ | parameterized _ _ | array _ | target =>
    simp [attach, HasReferenceBound]

/-- A type that erases to a class has no variable that stands for anything but references. -/
theorem hasReferenceBound_of_erasure {name : String} (h : t.erasure = named name) :
    t.HasReferenceBound ∧ ValueKind.of t = some .reference := by
  have hkind : ValueKind.of t = some .reference := by
    rw [ValueKind.of, h]
    rfl
  refine ⟨?_, hkind⟩
  cases t with
  | typeVar _ bound => exact hkind
  | _ => trivial

end TypeRef

/-- The local variable of a parameter holds a value of its kind and lies in the frame. -/
theorem Method.localKind?_parameterOffset {m : Method} (hm : ∀ t ∈ m.parameterTypes, 0 < t.slots)
    {i : Nat} {t : TypeRef} (ht : m.parameterTypes[i]? = some t) (hbound : t.HasReferenceBound)
    {kind : ValueKind} (hkind : ValueKind.of t = some kind) :
    m.localKind? (m.parameterOffset i) = some kind ∧
      m.parameterOffset i + kind.slots ≤ m.frameSize := by
  refine ⟨?_, ?_⟩
  · obtain ⟨hi, rfl⟩ := List.getElem?_eq_some_iff.1 ht
    rw [localKind?, localType?_parameterOffset hm hi, Option.bind_some, ValueKind.of_erasure, hkind]
  · rw [← TypeRef.slots_of_kind hbound hkind, ← parameterOffset_succ ht]
    exact m.parameterOffset_le_frameSize (i + 1)

/-! ### Fragments, for the pass and for heights -/

namespace Fragment

open ValueKind (height)

variable {f : Fragment} {fs : List Fragment} {m : Method} {s s' s'' : List ValueKind}
  {peak peak' : Nat} {exit : Exit}

/-- The effect of code with the effect `e` followed by the fragment. -/
def after (f : Fragment) (e : Effect) : Effect := totalEffect e f.parts

theorem after_join (fs : List Fragment) (e : Effect) :
    (join fs).after e = fs.foldl (fun e f => f.after e) e := by
  simp only [after, join, parts, totalEffect_eq_foldl, List.foldl_flatMap]

/-- What the frame needs of an effect does not depend on how the fragment is put together. -/
theorem maximal_after_zero (f : Fragment) :
    (f.after .zero).maximal.toNat = f.effect.maximal.toNat := by
  cases f with
  | empty | seq _ => rfl
  | illegal => rfl
  | op i e =>
    simp only [after, parts, totalEffect, effect, Effect.andThen, Effect.zero]
    omega

/-- The fragment takes the stack from `s` to `s'` and does not raise it above `peak`. Its effect
says the same about heights. -/
structure Moves (f : Fragment) (m : Method) (s s' : List ValueKind) (peak : Nat) : Prop where
  effect : ∀ e : Effect, e.impact = height s → 0 ≤ e.maximal →
    f.after e = ⟨height s', max e.maximal peak⟩
  run : ∀ n, peak ≤ n → ∀ is : List Instruction,
    (m.checker n).run s (f.instructions ++ is) = (m.checker n).run s' is

/-- Started on the stack `s`, the fragment leaves the method as told and does not raise the stack
above `peak`. By its effect the stack is empty afterwards. -/
structure Exits (f : Fragment) (m : Method) (s : List ValueKind) (exit : Exit) (peak : Nat) :
    Prop where
  effect : ∀ e : Effect, e.impact = height s → 0 ≤ e.maximal →
    f.after e = ⟨0, max e.maximal peak⟩
  run : ∀ n, peak ≤ n → ∀ is : List Instruction,
    (m.checker n).run s (f.instructions ++ is) = some exit

theorem moves_empty (m : Method) (s : List ValueKind) : empty.Moves m s s 0 where
  effect := by
    rintro ⟨impact, maximal⟩ himpact hmaximal
    dsimp only at himpact hmaximal
    simp only [after, parts, totalEffect, Effect.mk.injEq]
    exact ⟨himpact, by omega⟩
  run _ _ _ := rfl

theorem moves_join_nil (m : Method) (s : List ValueKind) : (join []).Moves m s s 0 where
  effect := (moves_empty m s).effect
  run _ _ _ := rfl

/-- **Fragments in order** lead from stack to stack. -/
theorem Moves.cons (h : f.Moves m s s' peak) (h' : (join fs).Moves m s' s'' peak') :
    (join (f :: fs)).Moves m s s'' (max peak peak') where
  effect e himpact hmaximal := by
    rw [after_join, List.foldl_cons, ← after_join, h.effect e himpact hmaximal,
      h'.effect _ rfl (by dsimp only; omega)]
    simp only [Effect.mk.injEq, true_and]
    omega
  run n hn is := by
    rw [instructions_join, List.flatMap_cons, List.append_assoc, h.run n (by omega),
      ← instructions_join, h'.run n (by omega)]

/-- **Fragments in order** that come to one that leaves the method. -/
theorem Moves.cons_exits (h : f.Moves m s s' peak) (h' : (join fs).Exits m s' exit peak') :
    (join (f :: fs)).Exits m s exit (max peak peak') where
  effect e himpact hmaximal := by
    rw [after_join, List.foldl_cons, ← after_join, h.effect e himpact hmaximal,
      h'.effect _ rfl (by dsimp only; omega)]
    simp only [Effect.mk.injEq, true_and]
    omega
  run n hn is := by
    rw [instructions_join, List.flatMap_cons, List.append_assoc, h.run n (by omega),
      ← instructions_join, h'.run n (by omega)]

/-- What follows a way out never runs. All that is left of it is its effect. -/
theorem Exits.cons_unreached (h : f.Exits m s exit peak)
    (h' : ∀ e : Effect, e.impact = 0 → 0 ≤ e.maximal →
      (join fs).after e = ⟨0, max e.maximal peak'⟩) :
    (join (f :: fs)).Exits m s exit (max peak peak') where
  effect e himpact hmaximal := by
    rw [after_join, List.foldl_cons, ← after_join, h.effect e himpact hmaximal,
      h' _ rfl (by dsimp only; omega)]
    simp only [Effect.mk.injEq, true_and]
    omega
  run n hn is := by
    rw [instructions_join, List.flatMap_cons, List.append_assoc, h.run n (by omega)]

theorem Exits.join_singleton (h : f.Exits m s exit peak) : (join [f]).Exits m s exit peak where
  effect e himpact hmaximal := by
    rw [after_join]
    exact h.effect e himpact hmaximal
  run n hn is := by
    rw [instructions_join, List.flatMap_singleton, h.run n hn]

/-! ### Single fragments -/

/-- An instruction moves the stack if its effect counts what it exchanges. -/
theorem moves_op {i : Instruction} {e : Effect} (takes leaves rest : List ValueKind)
    (hexchange : ∀ n, (m.checker n).exchange? (takes ++ rest) i = some (takes, leaves))
    (himpact : e.impact = (height leaves : Int) - height takes)
    (hpeak : (height (takes ++ rest) : Int) + e.maximal = peak)
    (hfits : height (leaves ++ rest) ≤ peak) :
    (op i e).Moves m (takes ++ rest) (leaves ++ rest) peak where
  effect := by
    rintro ⟨impact, maximal⟩ hstart hmaximal
    simp only [ValueKind.height_append] at hstart hpeak hfits
    dsimp only at hmaximal
    simp only [after, parts, totalEffect, effect, Effect.andThen, ValueKind.height_append,
      Effect.mk.injEq]
    omega
  run n hn is := Checker.run_cons (hexchange n) (Nat.le_trans hfits hn) is

theorem moves_push (i : Instruction) (kind : ValueKind)
    (h : ∀ n, (m.checker n).exchange? s i = some ([], [kind])) :
    (op i (.push kind.slots)).Moves m s (kind :: s) (height (kind :: s)) :=
  moves_op [] [kind] s h (by simp [Effect.push]) (by simp [Effect.push]; omega) (by simp)

/-- The zero value of a type, if it has values. -/
theorem moves_pushDefault (m : Method) (t : TypeRef) :
    (pushDefault t).Moves m [] (ValueKind.of t).toList (height (ValueKind.of t).toList) := by
  unfold pushDefault
  cases ValueKind.of t with
  | none => exact moves_empty m []
  | some kind =>
    cases kind with
    | int => exact moves_push (.pushInt 0) .int fun _ => rfl
    | long => exact moves_push (.pushLong 0) .long fun _ => rfl
    | float => exact moves_push .pushFloatZero .float fun _ => rfl
    | double => exact moves_push .pushDoubleZero .double fun _ => rfl
    | reference => exact moves_push .pushNull .reference fun _ => rfl

theorem moves_pop (m : Method) (kind : ValueKind) (s : List ValueKind) :
    (pop kind.slots).Moves m (kind :: s) s (height (kind :: s)) := by
  have hpop {i : Instruction}
      (h : ∀ n, (m.checker n).exchange? (kind :: s) i = some ([kind], [])) :
      (op i (.pop kind.slots)).Moves m (kind :: s) s (height (kind :: s)) :=
    moves_op [kind] [] s h (by simp [Effect.pop]) (by simp [Effect.pop]) (by simp)
  cases kind <;> exact hpop fun _ => by simp [Checker.exchange?, ValueKind.top?, ValueKind.slots]

/-- A local variable of the kind that its type says. -/
theorem moves_load {t : TypeRef} {slot : Nat} {kind : ValueKind} (ht : ValueKind.of t = some kind)
    (hlocal : m.localKind? slot = some kind) (hslot : slot + kind.slots ≤ m.frameSize) :
    (load t slot).Moves m s (kind :: s) (height (kind :: s)) := by
  unfold load
  rw [ht]
  exact moves_push (.load kind slot) kind fun _ => if_pos ⟨hlocal, hslot⟩

theorem moves_loadThis (hm : m.isStatic = false) :
    loadThis.Moves m s (.reference :: s) (height (.reference :: s)) := by
  have hlocal : m.localKind? 0 = some .reference := by
    simp [Method.localKind?, Method.localType?, hm, ValueKind.of, ValueKind.ofErased]
  have hslot : 0 + ValueKind.reference.slots ≤ m.frameSize := by
    simp [Method.frameSize, Method.receiverSlots, hm, ValueKind.slots]
  exact moves_push (.load .reference 0) .reference fun _ => if_pos ⟨hlocal, hslot⟩

/-- The parameter at an index, if all parameters have values. -/
theorem moves_load_parameter (hm : ∀ t ∈ m.parameterTypes, 0 < t.slots) {i : Nat} {t : TypeRef}
    (ht : m.parameterTypes[i]? = some t) (hbound : t.HasReferenceBound) {kind : ValueKind}
    (hkind : ValueKind.of t = some kind) :
    (load t (m.parameterOffset i)).Moves m s (kind :: s) (height (kind :: s)) := by
  obtain ⟨hlocal, hslot⟩ := Method.localKind?_parameterOffset hm ht hbound hkind
  exact moves_load hkind hlocal hslot

/-! ### Members -/

/-- What a method takes from the stack, top first. -/
def receiverKinds (dispatch : Dispatch) : List ValueKind :=
  if dispatch = .static then [] else [.reference]

/-- A call replaces arguments and receiver by the result. -/
theorem moves_invokeOn {callee : Method} {kinds : List ValueKind}
    (hcallee : callee.HasReferenceBounds)
    (hkinds : callee.parameterTypes.map ValueKind.of = kinds.map some) (owner : String)
    (dispatch : Dispatch) (m : Method) (s : List ValueKind) :
    (invokeOn callee owner dispatch).Moves m (kinds.reverse ++ receiverKinds dispatch ++ s)
      ((ValueKind.of callee.returnType).toList ++ s)
      (max (height (kinds.reverse ++ receiverKinds dispatch ++ s))
        (height ((ValueKind.of callee.returnType).toList ++ s))) := by
  have harguments : callee.type.parameterTypes.mapM ValueKind.ofErased = some kinds := by
    rw [mapM_eq_some_iff, ← hkinds]
    exact callee.kinds_erasedParameterTypes
  have hexchange (n : Nat) :
      (m.checker n).exchange? (kinds.reverse ++ receiverKinds dispatch ++ s)
        (.invoke dispatch ⟨owner, callee.name, callee.type⟩) =
      some (kinds.reverse ++ receiverKinds dispatch, (ValueKind.of callee.returnType).toList) := by
    simp only [Checker.exchange?, harguments, Option.bind_eq_bind, Option.bind_some]
    rfl
  have hslots := TypeRef.totalSlots_eq_height hcallee.parameterTypes hkinds
  have hreturn := TypeRef.slots_eq_height hcallee.returnType
  have hreceiver : height (receiverKinds dispatch) = if dispatch = .static then 0 else 1 := by
    unfold receiverKinds
    split <;> rfl
  refine moves_op _ _ s hexchange ?_ ?_ ?_ <;>
    simp only [Effect.replace, ValueKind.height_append, ValueKind.height_reverse, hslots, hreturn,
      hreceiver] <;> split <;> omega

/-- What an access to the field takes from the stack besides the value. -/
def fieldReceiverKinds (f : Field) : List ValueKind := if f.isStatic then [] else [.reference]

theorem moves_getField {f : Field} {kind : ValueKind} (hf : f.type.HasReferenceBound)
    (hkind : ValueKind.of f.type = some kind) :
    (getField f).Moves m (fieldReceiverKinds f ++ s) (kind :: s) (height (kind :: s)) := by
  have hslots := TypeRef.slots_of_kind hf hkind
  have hread : (ValueKind.ofErased (fieldRef f).type) = some kind := hkind
  unfold getField fieldReceiverKinds
  split
  · refine moves_op [] [kind] s (fun _ => ?_) ?_ ?_ ?_
    · simp [Checker.exchange?, hread]
    all_goals simp [hslots]
    omega
  · refine moves_op [.reference] [kind] s (fun _ => ?_) ?_ ?_ ?_
    · simp [Checker.exchange?, hread]
    all_goals simp [hslots, ValueKind.slots]
    omega

theorem moves_putField {f : Field} {kind : ValueKind} (hf : f.type.HasReferenceBound)
    (hkind : ValueKind.of f.type = some kind) :
    (putField f).Moves m (kind :: (fieldReceiverKinds f ++ s)) s
      (height (kind :: (fieldReceiverKinds f ++ s))) := by
  have hslots := TypeRef.slots_of_kind hf hkind
  have hwritten : (ValueKind.ofErased (fieldRef f).type) = some kind := hkind
  unfold putField fieldReceiverKinds
  split
  · refine moves_op [kind] [] s (fun _ => ?_) ?_ ?_ ?_
    · simp [Checker.exchange?, hwritten]
    all_goals simp [hslots]
  · refine moves_op [kind, .reference] [] s (fun _ => ?_) ?_ ?_ ?_
    · simp [Checker.exchange?, hwritten]
    all_goals simp [hslots, ValueKind.slots]
    all_goals omega

theorem moves_newInstance (m : Method) (name : String) (s : List ValueKind) :
    (newInstance name).Moves m s (.reference :: .reference :: s)
      (height (.reference :: .reference :: s)) := by
  have hnew : (op (.new name) (.push 1)).Moves m s (.reference :: s) (height (.reference :: s)) :=
    moves_push (.new name) .reference fun _ => rfl
  have hdup : (dup 1).Moves m (.reference :: s) (.reference :: .reference :: s)
      (height (.reference :: .reference :: s)) := by
    refine moves_op [.reference] [.reference, .reference] s (fun _ => ?_) ?_ ?_ ?_
    · simp [Checker.exchange?, ValueKind.top?, ValueKind.slots]
    all_goals simp [Effect.push, ValueKind.slots]
    all_goals omega
  have h := hnew.cons (hdup.cons (moves_join_nil m _))
  rwa [Nat.max_zero, Nat.max_eq_right (by simp)] at h

/-! ### Ways out -/

/-- The return for a type, with nothing but the value on the stack. -/
theorem exits_ret (m : Method) (t : TypeRef) :
    (ret t).Exits m (ValueKind.of t).toList (.returned (ValueKind.of t))
      (height (ValueKind.of t).toList) where
  effect := by
    rintro ⟨impact, maximal⟩ hstart hmaximal
    dsimp only at hstart hmaximal
    have hslots : (ValueKind.of t).elim 0 ValueKind.slots = height (ValueKind.of t).toList := by
      cases ValueKind.of t <;> simp
    simp only [ret, after, parts, totalEffect, effect, Effect.andThen, Effect.pop, hslots,
      Effect.mk.injEq]
    omega
  run _ _ is := by
    cases hkind : ValueKind.of t with
    | none => simp [ret, instructions, Checker.run, hkind]
    | some kind => simp [ret, instructions, Checker.run, hkind, List.dropPrefix?]

theorem exits_throw (m : Method) : throw.Exits m [.reference] .threw (height [.reference]) where
  effect := by
    rintro ⟨impact, maximal⟩ hstart hmaximal
    dsimp only at hstart hmaximal
    have hheight : height [.reference] = 1 := rfl
    simp only [throw, after, parts, totalEffect, effect, Effect.andThen, Effect.pop,
      Effect.mk.injEq]
    omega
  run _ _ _ := rfl

end Fragment

end ClassForge
