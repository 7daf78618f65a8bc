import ClassForge.Proofs.Compilation
import ClassForge.Proofs.HandlerTurns
import ClassForge.Proofs.ImplementationSteps
import ClassForge.Proofs.SuperCalls

/-!
# What helpers return

A helper is there to return one value. But it is bound to the whole handler that added it, and the
handler does not know it apart from the methods that it was written for. So every step of the
implementation contributes code to the helper as well, in its place, and the value is returned where
the step comes that asked for the helper.

The steps behind it never run, but there has to be code for them all the same. Of the steps before
it most leave nothing behind, as they are not the last, and the helpers of other steps are called
for nothing. What does harm is a step that throws, and a super call: if the superclass has no method
of the name, there is no code, and if it has one, a receiver is missing.

## Running code

Values are followed as far as they are known. Constants are; of all others only the kind is. A call
is taken to return some value of the kind that the called method returns.

## Main definitions

* `Datum`, `Datum.run` — values on the stack, and what code ends in
* `Code.Yields` — the code returns a constant
* `Implementation.suits` — a step has code for a helper
* `Implementation.goesOn` — a step leaves what follows to run

## Main results

* `Implementation.exists_emits_helper_iff` — steps that have code for a helper
* `Implementation.run_steps` — the steps in front of the one that returns
* `Registry.helpers_return_their_values` — which helpers return their values
-/

namespace ClassForge

/-! ### Values on the stack -/

/-- A value on the stack, as far as it is known. -/
inductive Datum where
  | null
  | int (value : Int32)
  | long (value : Int64)
  | text (value : String)
  | classOf (name : String)
  /-- Some value of the kind. -/
  | unknown (kind : ValueKind)
deriving DecidableEq

/-- The value that a constant pushes, if there is an instruction for it. -/
def Constant.datum? : Constant → Option Datum
  | null => some .null
  | int n => some (.int n)
  | long n => some (.long n)
  | boolean b => some (.int (if b then 1 else 0))
  | text s => some (.text s)
  | classOf t => t.erasure.rawName?.map .classOf

/-- How code ends. -/
inductive Ending where
  | threw
  /-- With a value, or without one. -/
  | returned (value : Option Datum)
deriving DecidableEq

namespace Datum

def kind : Datum → ValueKind
  | null | text _ | classOf _ => .reference
  | int _ => .int
  | long _ => .long
  | unknown k => k

/-- The values on top that are of the given kinds, and those below. -/
def split? (kinds : List ValueKind) (stack : List Datum) : Option (List Datum × List Datum) :=
  if (stack.take kinds.length).map kind = kinds then
    some (stack.take kinds.length, stack.drop kinds.length)
  else none

/-- What an instruction leaves that takes the given values and leaves values of the given kinds. -/
def results (taken : List Datum) (kinds : List ValueKind) : Instruction → List Datum
  | .pushNull => [.null]
  | .pushInt n => [.int n]
  | .pushLong n => [.long n]
  | .pushText s => [.text s]
  | .pushClass name => [.classOf name]
  | .dup | .dup2 => taken ++ taken
  | .cast _ => taken
  | _ => kinds.map .unknown

/-- The stack after an instruction that stays in the method, if it can run. -/
def step? (c : Checker) (stack : List Datum) (i : Instruction) : Option (List Datum) := do
  let (takes, leaves) ← c.exchange? (stack.map kind) i
  let (taken, rest) ← split? takes stack
  some (results taken leaves i ++ rest)

/-- How the code ends, if it does and every instruction up to there can run. -/
def run (c : Checker) (stack : List Datum) : List Instruction → Option Ending
  | [] => none
  | .throw :: _ => (split? [.reference] stack).map fun _ => .threw
  | .ret kind :: _ => (split? kind.toList stack).map fun s => .returned s.1.head?
  | i :: is => (step? c stack i).bind fun next => run c next is

variable {c : Checker} {stack : List Datum} {is : List Instruction}

theorem split?_append {taken : List Datum} {kinds : List ValueKind} (h : taken.map kind = kinds)
    (rest : List Datum) : split? kinds (taken ++ rest) = some (taken, rest) := by
  subst h
  simp [split?]

theorem run_cons_of_stays {i : Instruction} (hi : ∀ kind, i ≠ .ret kind) (hthrow : i ≠ .throw)
    (is : List Instruction) :
    run c stack (i :: is) = (step? c stack i).bind fun next => run c next is := by
  cases i with
  | throw => exact absurd rfl hthrow
  | ret kind => exact absurd rfl (hi kind)
  | _ => rfl

/-- An instruction that takes the values on top. -/
theorem run_cons {i : Instruction} {taken rest : List Datum} {leaves : List ValueKind}
    (h : c.exchange? ((taken ++ rest).map kind) i = some (taken.map kind, leaves))
    (is : List Instruction) :
    run c (taken ++ rest) (i :: is) = run c (results taken leaves i ++ rest) is := by
  have hstep : step? c (taken ++ rest) i = some (results taken leaves i ++ rest) := by
    simp only [step?, h, split?_append rfl rest, Option.bind_eq_bind, Option.bind_some]
  have hstays : (∀ kind, i ≠ .ret kind) ∧ i ≠ .throw := by
    constructor
    · rintro _ rfl
      cases h
    · rintro rfl
      cases h
  rw [run_cons_of_stays hstays.1 hstays.2, hstep, Option.bind_some]

/-- Code with a throw and without a return in front of it does not return. -/
theorem run_ne_returned {block : List Instruction} (hret : ∀ kind, .ret kind ∉ block)
    (hthrow : .throw ∈ block) (rest : List Instruction) (x : Option Datum) :
    run c stack (block ++ rest) ≠ some (.returned x) := by
  induction block generalizing stack with
  | nil => cases hthrow
  | cons i block ih =>
    by_cases hi : i = .throw
    · subst hi
      intro h
      rw [List.cons_append, run, Option.map_eq_some_iff] at h
      obtain ⟨_, -, h⟩ := h
      cases h
    · have hi' : ∀ kind, i ≠ .ret kind := fun kind heq => hret kind (heq ▸ List.mem_cons_self)
      rw [List.cons_append, run_cons_of_stays hi' hi]
      intro h
      obtain ⟨next, -, h⟩ := Option.bind_eq_some_iff.1 h
      exact ih (fun kind hk => hret kind (List.mem_cons_of_mem _ hk))
        ((List.mem_cons.1 hthrow).resolve_left (Ne.symm hi)) h

end Datum

/-- The code of the method returns the constant. How high the stack gets does not matter here. -/
def Code.Yields (m : Method) (code : Code) (value : Constant) : Prop :=
  ∃ x, value.datum? = some x ∧
    Datum.run (m.checker 0) [] code.instructions = some (.returned (some x))

instance (m : Method) (code : Code) (value : Constant) : Decidable (code.Yields m value) :=
  decidable_of_iff (value.datum?.any fun x => decide
      (Datum.run (m.checker 0) [] code.instructions = some (.returned (some x)))) <| by
    simp only [Code.Yields, Option.any_eq_true, decide_eq_true_eq]

/-! ### Pieces of code -/

namespace Datum

variable {c : Checker} {x : Datum}

/-- A constant is pushed as the value that it is. -/
theorem run_push {value : Constant} (h : value.push.isLegal = true) :
    ∃ x, value.datum? = some x ∧ x.kind = value.valueKind ∧ ∀ (c : Checker) stack is,
      run c stack (value.push.instructions ++ is) = run c (x :: stack) is := by
  cases value with
  | null => exact ⟨.null, rfl, rfl, fun _ _ _ => by simp [Constant.push]; rfl⟩
  | int n => exact ⟨.int n, rfl, rfl, fun _ _ _ => rfl⟩
  | long n => exact ⟨.long n, rfl, rfl, fun _ _ _ => rfl⟩
  | boolean b => exact ⟨.int (if b then 1 else 0), rfl, rfl, fun _ _ _ => rfl⟩
  | text s => exact ⟨.text s, rfl, rfl, fun _ _ _ => rfl⟩
  | classOf t =>
    replace h : (Fragment.pushClass t).isLegal = true := h
    unfold Fragment.pushClass at h
    cases hraw : t.erasure.rawName? with
    | none => simp [hraw, Fragment.isLegal] at h
    | some name =>
      refine ⟨.classOf name, by simp [Constant.datum?, hraw], rfl, fun _ _ _ => ?_⟩
      simp only [Constant.push, Fragment.pushClass, hraw]
      rfl

theorem run_ret (stack : List Datum) (is : List Instruction) :
    run c (x :: stack) (.ret (some x.kind) :: is) = some (.returned (some x)) := by
  have htop : split? [x.kind] (x :: stack) = some ([x], stack) :=
    @split?_append [x] [x.kind] rfl stack
  rw [run, Option.toList_some, htop]
  rfl

/-- A value is dropped. -/
theorem run_pop (is : List Instruction) :
    run c [x] ((Fragment.pop x.kind.slots).instructions ++ is) = run c [] is := by
  have htop (n : Nat) (hn : x.kind.slots = n + 1) :
      ValueKind.top? (n + 1) [x.kind] = some [x.kind] := by
    simp [ValueKind.top?, hn]
  have hslots : x.kind.slots = 1 ∨ x.kind.slots = 2 := by
    cases x.kind <;> simp [ValueKind.slots]
  rcases hslots with hslots | hslots
  · have hpop : c.exchange? [x.kind] .pop = some ([x.kind], []) :=
      congrArg (Option.map (·, [])) (htop 0 hslots)
    rw [hslots]
    exact @run_cons c .pop [x] [] [] hpop is
  · have hpop : c.exchange? [x.kind] .pop2 = some ([x.kind], []) :=
      congrArg (Option.map (·, [])) (htop 1 hslots)
    rw [hslots]
    exact @run_cons c .pop2 [x] [] [] hpop is

/-- A method without receiver and parameters is called. -/
theorem run_call {owner name : String} {result : TypeRef} {kind : ValueKind}
    (h : ValueKind.ofErased result = some kind) (is : List Instruction) :
    run c [] (.invoke .static ⟨owner, name, result, []⟩ :: is) = run c [.unknown kind] is := by
  have hexchange : c.exchange? [] (.invoke .static ⟨owner, name, result, []⟩) =
      some ([], [kind]) := by
    simp [Checker.exchange?, h]
  exact @run_cons c _ [] [] [kind] hexchange is

/-- Nothing can be called on a receiver that is not there. -/
theorem run_call_special (callee : MethodRef) (is : List Instruction) :
    run c [] (.invoke .special callee :: is) = none := by
  have hstep : step? c [] (.invoke .special callee) = none := by
    cases h : callee.type.parameterTypes.mapM ValueKind.ofErased with
    | none => simp [step?, Checker.exchange?, h]
    | some arguments => simp [step?, Checker.exchange?, h, split?]
  rw [run_cons_of_stays (fun _ => Instruction.noConfusion) Instruction.noConfusion, hstep,
    Option.bind_none]

end Datum

/-! ### Steps that have code for a helper -/

namespace Implementation

/-- Whether a step has code for the helper `m`. If it is to return, it has to return something that
fits, and if the helper is its own, then the value. -/
def suits (t : Target) (m : Method) (terminal : Bool) : Implementation → Bool
  | stub => true
  | fixed value => value.fits t.pool m.returnType && (!terminal || value.push.isLegal)
  | callSuper => (t.superCall? m.signature).isSome
  | throwNew exception message => (t.pool.find? exception).any fun type =>
    t.pool.isSubtype type BinaryName.throwable && (exceptionConstructor? t type message).isSome
  | accessField name _ =>
    ((FieldLocator.inHierarchy t.pool t.type t.type).locate? t.pool name).any fun f =>
      f.isStatic && (!terminal || (assign? t.pool f.type m.returnType).isSome)
  | callHelper name returnType value => value.fits t.pool returnType &&
    if m.identity = ((helperToken name returnType).attach t.type.name).identity then
      value.push.isLegal
    else !terminal || (assign? t.pool returnType m.returnType).isSome
  | sequence _ => false

/-- Whether what follows the step in a helper gets to run. -/
def goesOn : Implementation → Bool
  | callSuper | throwNew _ _ => false
  | _ => true

variable {t : Target} {m : Method} {terminal : Bool}

theorem isLegal_pop (n : Nat) : (Fragment.pop n).isLegal = true := by
  match n with
  | 0 | 1 | _ + 2 => rfl

theorem isLegal_stubFragment (m : Method) (terminal : Bool) :
    (stubFragment m terminal).isLegal = true := by
  cases terminal with
  | false => rfl
  | true =>
    unfold stubFragment Fragment.pushDefault
    rw [if_pos rfl, Fragment.isLegal_join]
    split <;> rfl

theorem exists_emits_iff_isLegal {i : Implementation} : (∃ is, i.Emits t m terminal is) ↔
    ∃ f, i.fragment t m terminal = .ok f ∧ f.isLegal = true := by
  simp [Emits]

theorem exists_emits_fixed_iff {value : Constant} :
    (∃ is, (fixed value).Emits t m terminal is) ↔
      value.fits t.pool m.returnType = true ∧ (terminal = true → value.push.isLegal = true) := by
  simp only [exists_emits_iff_isLegal, fragment, fixedFragment, bind_eq_ok_iff, refuseIf_eq_ok_iff]
  cases terminal <;> simp [pure, Except.pure, Fragment.isLegal, Fragment.ret]

theorem exists_emits_throwNew_iff {exception : String} {message : Option String} :
    (∃ is, (throwNew exception message).Emits t m terminal is) ↔
      ∃ type, t.pool.find? exception = some type ∧
        t.pool.isSubtype type BinaryName.throwable = true ∧
        (exceptionConstructor? t type message).isSome = true := by
  simp only [exists_emits_iff_isLegal, fragment, throwFragment, bind_eq_ok_iff, refuseIf_eq_ok_iff,
    orRefuse_eq_ok_iff, resolve_eq_ok_iff]
  cases message <;>
    simp [pure, Except.pure, Fragment.isLegal, Fragment.newInstance, Fragment.invoke,
      Fragment.invokeOn, Fragment.throw, Fragment.dup, Fragment.pushText, Option.isSome_iff_exists]

theorem exists_emits_callSuper_iff (hmoved : t.moved = .empty) (hparameters : m.parameters = []) :
    (∃ is, callSuper.Emits t m terminal is) ↔ ∃ call, t.superCall? m.signature = some call := by
  simp only [exists_emits_iff_isLegal, fragment, superFragment]
  cases hcall : t.superCall? m.signature with
  | none => simp
  | some call =>
    obtain ⟨c, owner, rfl, -⟩ := Target.superCall?_special hmoved hcall
    have hload (withThis : Bool) : (Fragment.loadArguments m withThis).isLegal = true :=
      Method.isLegal_loadArguments_iff.2 ⟨[], by simp [MethodToken.parameterTypes, hparameters]⟩
    have hfinish : (finish m c.returnType terminal).isLegal = true := by
      cases terminal
      · exact isLegal_pop _
      · rfl
    simp [hload, hfinish, SuperCall.fragment, Fragment.invokeOn, Fragment.isLegal]

theorem exists_emits_accessField_iff (hstatic : m.isStatic = true) (hparameters : m.parameters = [])
    (hvoid : m.returnType.isVoid = false) {name : String} {define : Option TypeRef} :
    (∃ is, (accessField name define).Emits t m terminal is) ↔
      ∃ f, (FieldLocator.inHierarchy t.pool t.type t.type).locate? t.pool name = some f ∧
        f.isStatic = true ∧
        (terminal = true → (assign? t.pool f.type m.returnType).isSome = true) := by
  simp only [exists_emits_iff_isLegal, fragment, fieldFragment, bind_eq_ok_iff, refuseIf_eq_ok_iff,
    orRefuse_eq_ok_iff, hparameters, hvoid, hstatic]
  cases terminal with
  | false => simp [pure, Except.pure, Fragment.isLegal]
  | true =>
    have hlegal {f : Field} {conversion : Fragment} (hf : f.isStatic = true)
        (hconversion : assign? t.pool f.type m.returnType = some conversion) :
        (Fragment.join [if f.isStatic then .empty else .loadThis, .getField f, conversion,
          .ret m.returnType]).isLegal = true := by
      obtain ⟨rfl, -⟩ := kind_of_assign hconversion
      simp [hf, Fragment.getField, Fragment.isLegal, Fragment.ret]
    constructor
    · rintro ⟨_, ⟨f, hfound, _, hf, h⟩, -⟩
      obtain ⟨conversion, hconversion, -⟩ := ok_of_bind h
      exact ⟨f, hfound, by simpa using hf, fun _ =>
        Option.isSome_iff_exists.2 ⟨conversion, orRefuse_eq_ok_iff.1 hconversion⟩⟩
    · rintro ⟨f, hfound, hf, hassign⟩
      obtain ⟨conversion, hconversion⟩ := Option.isSome_iff_exists.1 (hassign rfl)
      exact ⟨_, ⟨f, hfound, (), by simp [hf], bind_eq_ok_iff.2
        ⟨conversion, orRefuse_eq_ok_iff.2 hconversion, rfl⟩⟩, hlegal hf hconversion⟩

theorem exists_emits_callHelper_iff (hvoid : m.returnType.isVoid = false) {name : String}
    {returnType : TypeRef} {value : Constant} :
    (∃ is, (callHelper name returnType value).Emits t m terminal is) ↔
      value.fits t.pool returnType = true ∧
        if m.identity = ((helperToken name returnType).attach t.type.name).identity then
          value.push.isLegal = true
        else terminal = true → (assign? t.pool returnType m.returnType).isSome = true := by
  simp only [exists_emits_iff_isLegal, fragment, helperFragment, bind_eq_ok_iff,
    refuseIf_eq_ok_iff, hvoid]
  by_cases hself : m.identity = ((helperToken name returnType).attach t.type.name).identity
  · simp [hself, pure, Except.pure, Fragment.isLegal, Fragment.ret]
  · cases terminal with
    | false =>
      simp [hself, pure, Except.pure, Fragment.isLegal, Fragment.invoke, Fragment.invokeOn,
        isLegal_pop]
    | true =>
      have hlegal {conversion : Fragment}
          (hconversion : assign? t.pool returnType m.returnType = some conversion) :
          (Fragment.join [.invoke ((helperToken name returnType).attach t.type.name) .static,
            conversion, finish m returnType true]).isLegal = true := by
        obtain ⟨rfl, -⟩ := kind_of_assign hconversion
        rfl
      simp only [if_neg hself]
      constructor
      · rintro ⟨_, ⟨_, hfits, h⟩, -⟩
        obtain ⟨conversion, hconversion, -⟩ := ok_of_bind h
        exact ⟨by simpa using hfits, fun _ =>
          Option.isSome_iff_exists.2 ⟨conversion, orRefuse_eq_ok_iff.1 hconversion⟩⟩
      · rintro ⟨hfits, hassign⟩
        obtain ⟨conversion, hconversion⟩ := Option.isSome_iff_exists.1 (hassign trivial)
        exact ⟨_, ⟨(), by simp [hfits], bind_eq_ok_iff.2
          ⟨conversion, orRefuse_eq_ok_iff.2 hconversion, rfl⟩⟩, hlegal hconversion⟩

/-- **Which steps have code for a helper.** -/
theorem exists_emits_helper_iff {owner : String} (hm : m.IsHelper owner)
    (hmoved : t.moved = .empty) (hvoid : m.returnType.isVoid = false) {i : Implementation}
    (hi : ∀ parts, i = sequence parts → parts = []) :
    (∃ is, i.Emits t m terminal is) ↔ i.suits t m terminal = true := by
  have hparameters := hm.parameters_eq
  cases i with
  | stub =>
    exact ⟨fun _ => rfl, fun _ => exists_emits_iff_isLegal.2 ⟨_, rfl, isLegal_stubFragment ..⟩⟩
  | fixed value =>
    rw [exists_emits_fixed_iff]
    cases terminal <;> simp [suits]
  | callSuper =>
    rw [exists_emits_callSuper_iff hmoved hparameters]
    simp [suits, Option.isSome_iff_exists]
  | throwNew exception message =>
    rw [exists_emits_throwNew_iff]
    simp [suits, Option.any_eq_true]
  | accessField name define =>
    rw [exists_emits_accessField_iff hm.isStatic hparameters hvoid]
    cases terminal <;> simp [suits, Option.any_eq_true]
  | callHelper name returnType value =>
    rw [exists_emits_callHelper_iff hvoid, suits]
    split <;> cases terminal <;> simp
  | sequence parts =>
    obtain rfl := hi parts rfl
    simp [suits, not_emits_sequence_nil]

/-! ### The steps in front -/

/-- If the step needs a helper, type variables in what that returns stand for references. -/
def HasReferenceBound : Implementation → Prop
  | callHelper _ returnType _ => returnType.HasReferenceBound
  | _ => True

instance : DecidablePred HasReferenceBound := fun i => by
  cases i <;> unfold HasReferenceBound <;> infer_instance

section

variable {c : Checker} {owner : String} {i : Implementation} {block : List Instruction}

/-- **A step that goes on** leaves nothing behind in the helper of another step. -/
theorem run_of_goesOn (hm : m.IsHelper owner) (hvoid : m.returnType.isVoid = false)
    (hi : ∀ parts, i = sequence parts → parts = []) (hgoes : i.goesOn = true)
    (hbound : i.HasReferenceBound)
    (hother : ∀ n ∈ i.helper? t.type.name, n.identity ≠ m.identity)
    (h : i.Emits t m false block) (rest : List Instruction) :
    Datum.run c [] (block ++ rest) = Datum.run c [] rest := by
  obtain ⟨f, hf, -, rfl⟩ := h
  cases i with
  | stub =>
    obtain rfl := Except.ok.inj hf
    rfl
  | fixed value =>
    obtain ⟨_, -, hf⟩ := ok_of_bind hf
    obtain rfl := Except.ok.inj hf
    rfl
  | callSuper => cases hgoes
  | throwNew exception message => cases hgoes
  | accessField name define =>
    obtain ⟨field, -, hf⟩ := ok_of_bind hf
    obtain ⟨_, -, hf⟩ := ok_of_bind hf
    rw [hm.parameters_eq, hvoid] at hf
    obtain rfl := Except.ok.inj hf
    rfl
  | callHelper name returnType value =>
    obtain ⟨_, hfits, hf⟩ := ok_of_bind hf
    have hfits : value.fits t.pool returnType = true := by simpa using refuseIf_eq_ok_iff.1 hfits
    have hkind := Constant.kind_of_fits hfits
    have hself : m.identity ≠ ((helperToken name returnType).attach t.type.name).identity :=
      fun heq => hother _ rfl heq.symm
    dsimp only at hf
    rw [if_neg hself] at hf
    obtain rfl := Except.ok.inj hf
    have hslots : returnType.slots = (Datum.unknown value.valueKind).kind.slots :=
      TypeRef.slots_of_kind hbound hkind
    have hcalled : ValueKind.ofErased (returnType.attach t.type.name).erasure =
        some value.valueKind := (TypeRef.kind_attach t.type.name returnType).trans hkind
    have hinstructions : (Fragment.join [.invoke ((helperToken name returnType).attach t.type.name)
          .static, .pop returnType.slots, .empty]).instructions =
        .invoke .static ⟨t.type.name, name, (returnType.attach t.type.name).erasure, []⟩ ::
          (Fragment.pop (Datum.unknown value.valueKind).kind.slots).instructions := by
      rw [hslots]
      simp [Fragment.instructions, Fragment.invoke, Fragment.invokeOn, helperToken,
        MethodToken.attach, MethodToken.mapTypes, Method.type, Method.erasedParameterTypes]
    calc Datum.run c [] (_ ++ rest)
        = Datum.run c [.unknown value.valueKind]
            ((Fragment.pop (Datum.unknown value.valueKind).kind.slots).instructions ++ rest) := by
          refine (congrArg (fun is => Datum.run c [] (is ++ rest)) hinstructions).trans ?_
          exact Datum.run_call hcalled _
      _ = Datum.run c [] rest := Datum.run_pop rest
  | sequence parts =>
    obtain rfl := hi parts rfl
    cases hf

/-- A step that does not go on keeps the helper from returning anything. -/
theorem run_of_not_goesOn (hm : m.IsHelper owner) (hmoved : t.moved = .empty)
    (hgoes : i.goesOn = false) (h : i.Emits t m false block) (rest : List Instruction)
    (x : Option Datum) : Datum.run c [] (block ++ rest) ≠ some (.returned x) := by
  obtain ⟨f, hf, -, rfl⟩ := h
  cases i with
  | callSuper =>
    rw [fragment, superFragment] at hf
    split at hf
    · cases hf
    · rename_i call hcall
      obtain rfl := Except.ok.inj hf
      obtain ⟨callee, owner, rfl, -⟩ := Target.superCall?_special hmoved hcall
      have hload : (Fragment.loadArguments m (!m.isStatic)).instructions = [] := by
        simp [Fragment.loadArguments, hm.isStatic, MethodToken.parameterTypes, hm.parameters_eq,
          Fragment.loadFrom]
      simp [hload, SuperCall.fragment, Fragment.invokeOn, Fragment.instructions,
        Datum.run_call_special]
  | throwNew exception message =>
    obtain ⟨type, -, hf⟩ := ok_of_bind hf
    obtain ⟨_, -, hf⟩ := ok_of_bind hf
    obtain ⟨constructor, -, hf⟩ := ok_of_bind hf
    obtain rfl := Except.ok.inj hf
    refine Datum.run_ne_returned (fun kind => ?_) ?_ rest x
    · cases message <;>
        simp [Fragment.instructions, Fragment.newInstance, Fragment.invoke, Fragment.invokeOn,
          Fragment.throw, Fragment.dup, Fragment.pushText]
    · simp [Fragment.instructions, Fragment.throw]
  | stub | fixed _ | accessField _ _ | callHelper _ _ _ | sequence _ => cases hgoes

/-- **Steps in front of others** leave these to run as if they were not there, if all of them go
on, and otherwise the helper does not return. -/
theorem run_steps (hm : m.IsHelper owner) (hmoved : t.moved = .empty)
    (hvoid : m.returnType.isVoid = false) {steps : List (Implementation × Bool)}
    (hsteps : ∀ s ∈ steps, s.2 = false ∧ (∀ parts, s.1 = sequence parts → parts = []) ∧
      s.1.HasReferenceBound ∧ ∀ n ∈ s.1.helper? t.type.name, n.identity ≠ m.identity)
    {blocks : List (List Instruction)} (h : EmitAll t m steps blocks) (rest : List Instruction) :
    ((∀ s ∈ steps, s.1.goesOn = true) →
      Datum.run c [] (blocks.flatten ++ rest) = Datum.run c [] rest) ∧
    ((∃ s ∈ steps, s.1.goesOn = false) →
      ∀ x, Datum.run c [] (blocks.flatten ++ rest) ≠ some (.returned x)) := by
  induction h with
  | nil => simp
  | @cons s block steps blocks hblock _ ih =>
    rw [List.forall_mem_cons] at hsteps
    obtain ⟨⟨hflag, hleaf, hbound, hother⟩, hsteps⟩ := hsteps
    obtain ⟨ihgoes, ihstops⟩ := ih hsteps
    rw [hflag] at hblock
    rw [List.flatten_cons, List.append_assoc]
    cases hgoes : s.1.goesOn with
    | true =>
      have hrun := run_of_goesOn (c := c) hm hvoid hleaf hgoes hbound hother hblock
        (blocks.flatten ++ rest)
      rw [hrun]
      refine ⟨fun hall => ihgoes fun s hs => hall s (List.mem_cons_of_mem _ hs), ?_⟩
      rintro ⟨s', hs', hstops⟩
      rcases List.mem_cons.1 hs' with rfl | hs'
      · simp [hgoes] at hstops
      · exact ihstops ⟨s', hs', hstops⟩
    | false =>
      refine ⟨fun hall => ?_, fun _ => run_of_not_goesOn hm hmoved hgoes hblock _⟩
      simp [hgoes] at hall

end

section

variable {i : Implementation} {name : String} {returnType : TypeRef} {value : Constant}

/-- In a helper of its own a step returns the value. -/
theorem run_own_step {block : List Instruction} (hfits : value.fits t.pool returnType = true)
    (h : (callHelper name returnType value).Emits t
      ((helperToken name returnType).attach t.type.name) terminal block) :
    ∃ x, value.datum? = some x ∧ ∀ (c : Checker) rest,
      Datum.run c [] (block ++ rest) = some (.returned (some x)) := by
  obtain ⟨f, hf, hlegal, rfl⟩ := h
  obtain ⟨_, -, hf⟩ := ok_of_bind hf
  dsimp only at hf
  rw [if_pos rfl] at hf
  obtain rfl := Except.ok.inj hf
  rw [Fragment.isLegal_join, List.all_cons, Bool.and_eq_true] at hlegal
  obtain ⟨x, hx, hkind, hpush⟩ := Datum.run_push hlegal.1
  have hreturned : ValueKind.of returnType = some x.kind :=
    (Constant.kind_of_fits hfits).trans (congrArg some hkind.symm)
  refine ⟨x, hx, fun c rest => ?_⟩
  have hinstructions : (Fragment.join [value.push, .ret returnType]).instructions =
      value.push.instructions ++ [.ret (some x.kind)] := by
    simp [Fragment.ret, Fragment.instructions, hreturned]
  rw [hinstructions, List.append_assoc, hpush]
  exact Datum.run_ret [] rest

/-- A value that fits a variable is returned by no method without a result. -/
theorem isVoid_of_fits {p : Pool} (hfits : value.fits p returnType = true) (name owner : String) :
    ((helperToken name returnType).attach owner).returnType.isVoid = false := by
  refine Bool.eq_false_of_not_eq_true fun hvoid => ?_
  have hkind : ValueKind.of (returnType.attach owner) = some value.valueKind :=
    (TypeRef.kind_attach owner returnType).trans (Constant.kind_of_fits hfits)
  have hnone : returnType.attach owner = .void := TypeRef.isVoid_iff.1 hvoid
  rw [hnone] at hkind
  cases hkind

/-- The code of all steps returns the value exactly if those in front of the own step go on. -/
theorem run_flatten_iff {last : Bool} {before after : List (Implementation × Bool)}
    (hmoved : t.moved = .empty) (hfits : value.fits t.pool returnType = true)
    (hhelper : (helperToken name returnType).attach t.type.name = m)
    (hbefore : ∀ s ∈ before, s.2 = false ∧ (∀ parts, s.1 = sequence parts → parts = []) ∧
      s.1.HasReferenceBound ∧ ∀ n ∈ s.1.helper? t.type.name, n.identity ≠ m.identity)
    {blocks : List (List Instruction)} (hblocks : EmitAll t m
      (before ++ (callHelper name returnType value, last) :: after) blocks) :
    ∃ x, value.datum? = some x ∧ ((∀ s ∈ before, s.1.goesOn = true) ↔
      Datum.run (m.checker 0) [] blocks.flatten = some (.returned (some x))) := by
  have hvoid : m.returnType.isVoid = false := hhelper ▸ isVoid_of_fits hfits name t.type.name
  obtain ⟨first, _, hfirst, hrest, rfl⟩ := emitAll_append_iff.1 hblocks
  obtain ⟨own, rest, hown, -, rfl⟩ := List.forall₂_cons_left_iff.1 hrest
  obtain ⟨x, hx, hreturns⟩ := run_own_step hfits (hhelper ▸ hown)
  obtain ⟨hgoes, hstops⟩ := run_steps (c := m.checker 0) ⟨name, returnType, hhelper.symm⟩ hmoved
    hvoid hbefore hfirst (own ++ rest.flatten)
  rw [List.flatten_append, List.flatten_cons]
  exact ⟨x, hx, fun hall => (hgoes hall).trans (hreturns _ _), fun h s hs =>
    Bool.of_not_eq_false fun hnot => hstops ⟨s, hs, hnot⟩ _ h⟩

/-- **A helper returns its value** exactly if every step has code for it and none of those in front
of its own keeps it from getting there. -/
theorem exists_yielding_code_iff {last : Bool} {before after : List (Implementation × Bool)}
    (hmoved : t.moved = .empty) (hfits : value.fits t.pool returnType = true)
    (hhelper : (helperToken name returnType).attach t.type.name = m)
    (hsteps : i.steps true = before ++ (callHelper name returnType value, last) :: after)
    (hbefore : ∀ s ∈ before, s.1.HasReferenceBound ∧ ∀ n ∈ s.1.helper? t.type.name,
      n.identity ≠ m.identity) :
    (∃ code, (Appender.implementation i t).apply m = .ok code ∧ code.Yields m value) ↔
      (∀ s ∈ i.steps true, s.1.suits t m s.2 = true) ∧ ∀ s ∈ before, s.1.goesOn = true := by
  have hleaf (s : Implementation × Bool) (hs : s ∈ i.steps true) :
      ∀ parts, s.1 = sequence parts → parts = [] := eq_nil_of_mem_steps i hs
  have hsuits : (∀ s ∈ i.steps true, s.1.suits t m s.2 = true) ↔
      ∃ blocks, EmitAll t m (i.steps true) blocks :=
    (forall₂_congr fun s hs => (exists_emits_helper_iff ⟨name, returnType, hhelper.symm⟩ hmoved
      (hhelper ▸ isVoid_of_fits hfits name t.type.name) (hleaf s hs)).symm).trans
      exists_emitAll_iff.symm
  have hrun {blocks : List (List Instruction)} (hblocks : EmitAll t m (i.steps true) blocks) :=
    run_flatten_iff hmoved hfits hhelper (fun s hs => ⟨steps_of_append hsteps s hs,
      hleaf s (hsteps ▸ List.mem_append_left _ hs), hbefore s hs⟩) (hsteps ▸ hblocks)
  have hcode := apply_implementation_iff (t := t) (m := m) (i := i) (P := fun is =>
    ∃ x, value.datum? = some x ∧ Datum.run (m.checker 0) [] is = some (.returned (some x)))
  rw [hsuits]
  constructor
  · intro h
    obtain ⟨is, hemits, x, hx, hyields⟩ := hcode.1 h
    obtain ⟨blocks, hblocks, rfl⟩ := (emits_iff_emitAll true i).1 hemits
    obtain ⟨y, hy, hiff⟩ := hrun hblocks
    obtain rfl := Option.some.inj (hx.symm.trans hy)
    exact ⟨⟨blocks, hblocks⟩, hiff.2 hyields⟩
  · rintro ⟨⟨blocks, hblocks⟩, hgoes⟩
    obtain ⟨x, hx, hiff⟩ := hrun hblocks
    exact hcode.2
      ⟨_, (emits_iff_emitAll true i).2 ⟨blocks, hblocks, rfl⟩, x, hx, hiff.1 hgoes⟩

end

end Implementation

/-! ### Helpers of a registry -/

namespace Registry

variable {r : Registry} {d : Draft} {scope : GraphScope} {p : Pool} {claimable : LatentMatcher}
  {q : PreparedRegistry} {i : Implementation} {name : String} {returnType : TypeRef}
  {value : Constant} {last : Bool} {before after : List (Implementation × Bool)}

/-- The helper of a step is new in the turn of its handler, and no step in front has the same. -/
theorem adds_of_steps (h : r.prepare d scope true p claimable = .ok q)
    (hi : .implement i ∈ r.handlers)
    (hsteps : i.steps true = before ++ (.callHelper name returnType value, last) :: after) :
    Handler.Adds d r.handlers (.implement i) ((helperToken name returnType).attach d.decl.name) ∧
      (helperToken name returnType).attach d.decl.name ∈ q.draft.decl.methods ∧
      (helperToken name returnType).attach d.decl.name ∉ d.decl.methods ∧
      ∀ s ∈ before, ∀ n ∈ s.1.helper? d.decl.name,
        n.identity ≠ ((helperToken name returnType).attach d.decl.name).identity := by
  generalize hhelper : (helperToken name returnType).attach d.decl.name = helper
  obtain ⟨s, hprep, hq⟩ := prepares_of_prepare h
  replace hq := hq rfl
  obtain ⟨hs, hs', d₁, d₂, heq, hfirst, hturn, hgrows⟩ :=
    Handler.exists_turn hi (turns_of_prepare h).1
  obtain rfl := Except.ok.inj hturn
  have hgrown : d.Grows d₁ := Handler.grows_prepareAll hfirst
  have hmethods : (i.prepare d₁).decl.methods =
      (d₁.decl.methods ++ before.filterMap (·.1.helper? d.decl.name)) ++
        helper :: after.filterMap (·.1.helper? d.decl.name) := by
    rw [i.methods_prepare true d₁, hgrown.name, hsteps]
    simp [Implementation.helper?, hhelper]
  have hmem : helper ∈ (i.prepare d₁).decl.methods := by simp [hmethods]
  have hnodup : ((i.prepare d₁).decl.methods.map (·.identity)).Nodup := by
    obtain ⟨more, hmore, -⟩ := hgrows.methods
    have hall := TypeDecl.identities_nodup hq
    rw [hmore, List.map_append] at hall
    exact (List.nodup_append.1 hall).1
  have hfresh : ∀ n ∈ d₁.decl.methods ++ before.filterMap (·.1.helper? d.decl.name),
      n.identity ≠ helper.identity := by
    rw [hmethods, List.map_append, List.nodup_append] at hnodup
    exact fun n hn => hnodup.2.2 _ (List.mem_map_of_mem hn) _ (by simp)
  refine ⟨⟨hs, hs', d₁, i.prepare d₁, heq, hfirst, hturn, ⟨List.mem_map_of_mem hmem, ?_⟩, hmem⟩,
    hgrows.mem hmem, fun hd => ?_, fun s hs n hn => ?_⟩
  · rintro hk
    obtain ⟨n, hn, hk⟩ := List.mem_map.1 hk
    exact hfresh n (List.mem_append_left _ hn) hk
  · exact hfresh helper (List.mem_append_left _ (hgrown.mem hd)) rfl
  · exact hfresh n (List.mem_append_right _ (List.mem_filterMap.2 ⟨s, hs, hn⟩))

/-- **Which helpers return their values.** Of an implementation that a registry prepares a type for,
take any step that asks for a helper with a value that fits. The accepted type has the helper, new
and with the code of the whole implementation. That is code which returns the value exactly if every
step has code for the helper and no step in front is a super call or a throw. -/
theorem helpers_return_their_values (h : r.prepare d scope true p claimable = .ok q)
    (hi : ∃ rule ∈ r.rules, rule.handler = .implement i)
    (hsteps : i.steps true = before ++ (.callHelper name returnType value, last) :: after)
    (hfits : value.fits p returnType = true) (hbounds : ∀ s ∈ before, s.1.HasReferenceBound) :
    let helper := (helperToken name returnType).attach d.decl.name
    let t := Target.make q.draft.decl q.graph p
    helper ∈ q.draft.decl.methods ∧ helper ∉ d.decl.methods ∧
    (name ≠ typeInitializerName → ∀ release, (q.compile release).record helper =
      .implemented helper (.implementation i t) (Attributes.ofMethod helper).sources
        helper.visibility) ∧
    ((∃ code, (Appender.implementation i t).apply helper = .ok code ∧ code.Yields helper value) ↔
      (∀ s ∈ i.steps true, s.1.suits t helper s.2 = true) ∧
        ∀ s ∈ before, s.1.goesOn = true) := by
  intro helper t
  obtain ⟨s, hprep, -⟩ := prepares_of_prepare h
  obtain ⟨hadds, hmem, hnew, hdistinct⟩ := adds_of_steps h (mem_handlers_iff.2 hi) hsteps
  have hname : t.type.name = d.decl.name := (hprep.draft ▸ hprep.sound.grows).name
  refine ⟨hmem, hnew, fun hinitializer release => ?_, ?_⟩
  · obtain ⟨handler, hadds', hentry⟩ := (turns_of_prepare h).2 helper hmem hnew
      (decide_eq_false hinitializer)
    obtain rfl := hadds.unique hadds'
    have htarget : (q.compile release).target = t := by
      change Target.make q.draft.decl q.graph q.pool .none = t
      rw [hprep.pool]
    rw [PreparedRegistry.record_compile, hentry, htarget]
    cases hbridges : release.supportsBridges with
    | false => rfl
    | true => rfl
  · exact Implementation.exists_yielding_code_iff (t := t) rfl hfits (hname ▸ rfl) hsteps
      fun s hs => ⟨hbounds s hs, hname ▸ hdistinct s hs⟩

/-- A helper with a step of every harmless kind in front of its own, at some depth, and a throw
behind. -/
theorem helpers_return_their_values_nested :
    let int : TypeRef := .primitive .int
    let failure : TypeDecl :=
      { name := "a.Failure", modifiers := .of [.accPublic]
        superclass := some (.named BinaryName.throwable)
        methods := [{ MethodToken.constructor (.of [.accPublic]) [] with owner := "a.Failure" }] }
    let p := Pool.empty.register failure
    let d := (Draft.subclass "a.Sub" (.of [.accPublic]) .object).addField
      { name := "count", modifiers := .of [.accStatic], type := .primitive .long }
    let seven : Implementation := .callHelper "seven" int (.int 7)
    let i : Implementation := .sequence [.callHelper "log" (.primitive .long) (.long 1),
      .sequence [.accessField "count" none, .fixed (.int 0), .sequence [.stub], seven],
      .throwNew "a.Failure" none]
    let r : Registry :=
      { rules := [{ matcher := .resolved (.named "run"), handler := .implement i }] }
    let helper := (helperToken "seven" int).attach "a.Sub"
    ∃ q code, r.prepare d .hierarchy true p (.instrumentable .never) = .ok q ∧
      (Appender.implementation i (.make q.draft.decl q.graph p)).apply helper = .ok code ∧
      code.instructions = [.invoke .static ⟨"a.Sub", "log", .primitive .long, []⟩, .pop2,
        .pushInt 7, .ret (some .int), .new "a.Failure", .dup,
        .invoke .special ⟨"a.Failure", constructorName, .void, []⟩, .throw] ∧
      code.Yields helper (.int 7) := by
  intro int failure p d seven i r helper
  have facts : (r.prepare d .hierarchy true p (.instrumentable .never)).toOption.any (fun q =>
      decide (∀ s ∈ i.steps true, s.1.suits (.make q.draft.decl q.graph p) helper s.2 = true) &&
        ((Appender.implementation i (.make q.draft.decl q.graph p)).apply helper).toOption.any
          fun code => decide (code.instructions =
            [.invoke .static ⟨"a.Sub", "log", .primitive .long, []⟩, .pop2, .pushInt 7,
              .ret (some .int), .new "a.Failure", .dup,
              .invoke .special ⟨"a.Failure", constructorName, .void, []⟩, .throw])) = true := by
    decide +kernel
  obtain ⟨q, h, hq⟩ := exists_ok_of_any facts
  rw [Bool.and_eq_true, decide_eq_true_eq] at hq
  obtain ⟨hsuits, hinstructions⟩ := hq
  obtain ⟨code, happly, hinstructions⟩ := exists_ok_of_any hinstructions
  have hsteps : i.steps true = [(.callHelper "log" (.primitive .long) (.long 1), false),
      (.accessField "count" none, false), (.fixed (.int 0), false), (.stub, false)] ++
        (seven, false) :: [(.throwNew "a.Failure" none, true)] := rfl
  obtain ⟨-, -, -, hiff⟩ := helpers_return_their_values h
    ⟨_, List.mem_singleton_self _, rfl⟩ hsteps (by decide) (by decide)
  obtain ⟨code', happly', hyields⟩ := hiff.2 ⟨hsuits, by decide⟩
  obtain rfl := Except.ok.inj (happly.symm.trans happly')
  exact ⟨q, code, h, happly, of_decide_eq_true hinstructions, hyields⟩

/-- A super call in front of the step leaves its helper without code, and with a throw in front the
helper throws. -/
theorem helpers_lose_their_values :
    let failure : TypeDecl :=
      { name := "a.Failure", modifiers := .of [.accPublic]
        superclass := some (.named BinaryName.throwable)
        methods := [{ MethodToken.constructor (.of [.accPublic]) [] with owner := "a.Failure" }] }
    let p := Pool.empty.register failure
    let compute : Implementation := .callHelper "compute" (.primitive .int) (.int 7)
    let helper := (helperToken "compute" (.primitive .int)).attach "a.Sub"
    let calling : Implementation := .sequence [.callSuper, compute]
    let throwing : Implementation := .sequence [.throwNew "a.Failure" none, compute]
    let prepare (i : Implementation) : Build PreparedRegistry :=
      Registry.prepare { rules := [{ matcher := .never, handler := .implement i }] }
        (.subclass "a.Sub" (.of [.accPublic]) .object) .hierarchy true p .always
    (∃ q, prepare calling = .ok q ∧ q.draft.decl.methods = [helper] ∧ ¬ ∃ code,
      (Appender.implementation calling (.make q.draft.decl q.graph p)).apply helper = .ok code) ∧
    ∃ q code, prepare throwing = .ok q ∧ q.draft.decl.methods = [helper] ∧
      (Appender.implementation throwing (.make q.draft.decl q.graph p)).apply helper = .ok code ∧
      ¬ code.Yields helper (.int 7) := by
  intro failure p compute helper calling throwing prepare
  have uncoded : (prepare calling).toOption.any (fun q =>
      decide (q.draft.decl.methods = [helper]) &&
        ((Appender.implementation calling (.make q.draft.decl q.graph p)).apply
          helper).toOption.isNone) = true := by
    decide +kernel
  have unreached : (prepare throwing).toOption.any (fun q =>
      decide (q.draft.decl.methods = [helper]) &&
        ((Appender.implementation throwing (.make q.draft.decl q.graph p)).apply
          helper).toOption.any fun code => decide (¬ code.Yields helper (.int 7))) = true := by
    decide +kernel
  refine ⟨?_, ?_⟩
  · obtain ⟨q, hq, hfacts⟩ := exists_ok_of_any uncoded
    rw [Bool.and_eq_true, decide_eq_true_eq] at hfacts
    refine ⟨q, hq, hfacts.1, fun ⟨code, hcode⟩ => ?_⟩
    rw [hcode] at hfacts
    cases hfacts.2
  · obtain ⟨q, hq, hfacts⟩ := exists_ok_of_any unreached
    rw [Bool.and_eq_true, decide_eq_true_eq] at hfacts
    obtain ⟨code, hcode, hyields⟩ := exists_ok_of_any hfacts.2
    exact ⟨q, code, hq, hfacts.1, hcode, of_decide_eq_true hyields⟩

end Registry

end ClassForge
