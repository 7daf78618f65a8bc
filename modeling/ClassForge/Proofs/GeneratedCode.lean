import ClassForge.Appender
import ClassForge.Proofs.Outcomes
import ClassForge.Proofs.StackKinds
import ClassForge.Proofs.Supertypes

/-!
# Generated code passes the check

The code that implementations become is checked here, for all of them that call nothing on the
superclass. What a single one does with the stack is settled by the kinds of its types. Sequences
are the part that needs a statement for an induction: a part that is not the last has to give the
stack back as it was, unless it leaves the method, and then what follows never runs. It still counts
for the size of the frame, and so its effect has to be known too.

That says `Fragment.Finishes`. Nothing in it is about sequences, so the statement for a sequence is
that of its parts.

## Main definitions

* `Fragment.Finishes` — what a fragment does that stands for an implementation
* `Implementation.IsStandalone` — nothing is called on the superclass
* `Target.HasReferenceBounds` — what is asked of declarations

## Main results

* `Implementation.IsStandalone.finishes` — what the fragment of an implementation does
* `Implementation.generated_code_verifies` — the code of an implementation passes the check
-/

namespace ClassForge

/-! ### What implementations become -/

namespace Fragment

open ValueKind (height)

variable {f : Fragment} {fs : List Fragment} {m : Method} {s s' : List ValueKind} {peak : Nat}
  {terminal : Bool}

/-- From a stack on, the fragment does what is expected of an implementation, in a frame that a
class file can describe. -/
inductive Finishes (f : Fragment) (m : Method) (s : List ValueKind) : Bool → Prop where
  /-- The stack is empty in the end. A terminal fragment does not end so. -/
  | comesBack {peak : Nat} (hpeak : peak ≤ Code.frameLimit) (h : f.Moves m s [] peak) :
    Finishes f m s false
  /-- The method is left as it may be. -/
  | leaves {terminal : Bool} {peak : Nat} {exit : Exit} (hpeak : peak ≤ Code.frameLimit)
    (hexit : exit.fits m = true) (h : f.Exits m s exit peak) : Finishes f m s terminal

theorem finishes_empty (m : Method) : empty.Finishes m [] false :=
  .comesBack (Nat.zero_le _) (moves_empty m [])

theorem Finishes.join_singleton (h : f.Finishes m s terminal) :
    (join [f]).Finishes m s terminal := by
  cases h with
  | comesBack hpeak h =>
    exact .comesBack (Nat.max_le.2 ⟨hpeak, Nat.zero_le _⟩) (h.cons (moves_join_nil m []))
  | leaves hpeak hexit h => exact .leaves hpeak hexit h.join_singleton

/-- A fragment that moves the stack, and what is done from there. -/
theorem Moves.cons_finishes (h : f.Moves m s s' peak) (hpeak : peak ≤ Code.frameLimit)
    (hrest : (join fs).Finishes m s' terminal) : (join (f :: fs)).Finishes m s terminal := by
  cases hrest with
  | comesBack hpeak' hrest => exact .comesBack (Nat.max_le.2 ⟨hpeak, hpeak'⟩) (h.cons hrest)
  | leaves hpeak' hexit hrest =>
    exact .leaves (Nat.max_le.2 ⟨hpeak, hpeak'⟩) hexit (h.cons_exits hrest)

/-- **One part after another.** If the first leaves the method, the others only count for the size
of the frame. -/
theorem Finishes.cons (h : f.Finishes m s false) (hrest : (join fs).Finishes m [] terminal) :
    (join (f :: fs)).Finishes m s terminal := by
  cases h with
  | comesBack hpeak h => exact h.cons_finishes hpeak hrest
  | leaves hpeak hexit h =>
    cases hrest with
    | comesBack hpeak' hrest =>
      exact .leaves (Nat.max_le.2 ⟨hpeak, hpeak'⟩) hexit (h.cons_unreached hrest.effect)
    | leaves hpeak' _ hrest =>
      exact .leaves (Nat.max_le.2 ⟨hpeak, hpeak'⟩) hexit (h.cons_unreached hrest.effect)

/-- A terminal fragment makes code that passes. -/
theorem Finishes.verifies (h : f.Finishes m [] true) : (Code.of f m.frameSize).Verifies m := by
  cases h with
  | @leaves _ peak exit hpeak hexit h =>
    have hmaximal : f.effect.maximal.toNat = peak := by
      rw [← maximal_after_zero, h.effect .zero rfl le_rfl]
      simp [Effect.zero]
    refine ⟨exit, hexit, ?_⟩
    have hrun := h.run peak le_rfl []
    rw [List.append_nil] at hrun
    rwa [Code.of, hmaximal, Nat.min_eq_left hpeak]

/-- A few values fit every frame. -/
theorem height_le_frameLimit {stack : List ValueKind} (h : stack.length ≤ 4) :
    height stack ≤ Code.frameLimit := by
  have := ValueKind.height_le stack
  rw [Code.frameLimit]
  omega

/-- The value on the stack is returned. -/
theorem finishes_ret {t : TypeRef} (h : ValueKind.of t = ValueKind.of m.returnType) :
    (ret t).Finishes m (ValueKind.of t).toList terminal := by
  have hexit : (Exit.returned (ValueKind.of t)).fits m = true := decide_eq_true h
  refine .leaves (height_le_frameLimit ?_) hexit (exits_ret m t)
  cases ValueKind.of t <;> simp

theorem finishes_ret_value {t : TypeRef} {kind : ValueKind} (ht : ValueKind.of t = some kind)
    (h : ValueKind.of t = ValueKind.of m.returnType) : (ret t).Finishes m [kind] terminal := by
  have hret : (ret t).Finishes m (ValueKind.of t).toList terminal := finishes_ret h
  rwa [ht] at hret

/-- The method is left without a value where the fragment is terminal. -/
theorem finishes_end (h : terminal = true → m.returnType = .void) :
    (if terminal then ret .void else empty : Fragment).Finishes m [] terminal := by
  cases terminal with
  | false => exact finishes_empty m
  | true =>
    have hkind : ValueKind.of .void = ValueKind.of m.returnType := by rw [h rfl]
    exact finishes_ret hkind

end Fragment

/-! ### Kinds of constants and conversions -/

/-- The kind of value that a constant is. -/
def Constant.valueKind : Constant → ValueKind
  | int _ | boolean _ => .int
  | long _ => .long
  | null | text _ | classOf _ => .reference

namespace Constant

variable {c : Constant} {p : Pool} {t : TypeRef}

/-- A constant fits variables of its kind. -/
theorem kind_of_fits (h : c.fits p t = true) : ValueKind.of t = some c.valueKind := by
  rw [fits] at h
  rw [ValueKind.of]
  generalize t.erasure = erased at h
  unfold fitsErased at h
  split at h
  all_goals first | rfl | cases h

theorem moves_push (h : c.push.isLegal = true) (m : Method) (s : List ValueKind) :
    c.push.Moves m s (c.valueKind :: s) (ValueKind.height (c.valueKind :: s)) := by
  cases c with
  | null => exact Fragment.moves_push .pushNull .reference fun _ => rfl
  | int n => exact Fragment.moves_push (.pushInt n) .int fun _ => rfl
  | long n => exact Fragment.moves_push (.pushLong n) .long fun _ => rfl
  | boolean b => exact Fragment.moves_push (.pushInt (if b then 1 else 0)) .int fun _ => rfl
  | text s => exact Fragment.moves_push (.pushText s) .reference fun _ => rfl
  | classOf t =>
    change (Fragment.pushClass t).Moves m s _ _
    replace h : (Fragment.pushClass t).isLegal = true := h
    unfold Fragment.pushClass at h ⊢
    cases hraw : t.erasure.rawName? with
    | none => simp [hraw, Fragment.isLegal] at h
    | some name => exact Fragment.moves_push (.pushClass name) .reference fun _ => rfl

end Constant

theorem ValueKind.of_eq_reference {t : TypeRef} (hprimitive : t.erasure.isPrimitive = false)
    (hvoid : t.erasure.isVoid = false) : ValueKind.of t = some .reference := by
  rw [ValueKind.of]
  generalize t.erasure = erased at hprimitive hvoid
  cases erased with
  | void => cases hvoid
  | primitive _ => cases hprimitive
  | _ => rfl

/-- A value is used as one of another type without any code, and only if that is of its kind. -/
theorem kind_of_assign {p : Pool} {source wanted : TypeRef} {f : Fragment}
    (h : assign? p source wanted = some f) :
    f = .empty ∧ ValueKind.of source = ValueKind.of wanted := by
  unfold assign? at h
  dsimp only at h
  split at h
  · rename_i herasure
    exact ⟨(Option.some.inj h).symm, congrArg ValueKind.ofErased herasure⟩
  · split at h
    · cases h
    · rename_i hreferences
      simp only [Bool.or_eq_true, not_or, Bool.not_eq_true] at hreferences
      obtain ⟨⟨⟨hsource, hwanted⟩, hsource'⟩, hwanted'⟩ := hreferences
      refine ⟨?_, ?_⟩
      · split at h
        all_goals first | cases h | skip
        all_goals split at h
        all_goals first | exact (Option.some.inj h).symm | cases h
      · rw [ValueKind.of_eq_reference hsource hsource', ValueKind.of_eq_reference hwanted hwanted']

/-! ### Single implementations -/

namespace FieldLocator

theorem mem_of_decide? {α : Type} {levels : List (List α)} {x : α} (h : decide? levels = some x) :
    ∃ level ∈ levels, x ∈ level := by
  induction levels with
  | nil => cases h
  | cons level levels ih =>
    match level, h with
    | [], h =>
      obtain ⟨level, hlevel, hx⟩ := ih h
      exact ⟨level, List.mem_cons_of_mem _ hlevel, hx⟩
    | [y], h =>
      obtain rfl := Option.some.inj h
      exact ⟨[y], List.mem_cons_self, List.mem_singleton_self y⟩

/-- The field that is found is declared on one of the levels. -/
theorem mem_of_find? {l : FieldLocator} {p : Pool} {wanted : Field → Bool} {f : Field}
    (h : l.find? p wanted = some f) : ∃ u ∈ l.levels, f ∈ u.fields := by
  obtain ⟨_, hlevel, hf⟩ := mem_of_decide? h
  obtain ⟨u, hu, rfl⟩ := List.mem_map.1 hlevel
  exact ⟨u, hu, (List.mem_filter.1 hf).1⟩

end FieldLocator

/-- Where the declarations that a target knows have type variables in them, these stand for
references, and constructors return nothing. -/
structure Target.HasReferenceBounds (t : Target) : Prop where
  fields : ∀ u ∈ t.type :: t.pool.types, ∀ f ∈ u.fields, f.type.HasReferenceBound
  constructors : ∀ u ∈ t.pool.types, ∀ c ∈ u.methods, c.isConstructor = true → c.returnType = .void

namespace Implementation

open Fragment ValueKind

variable {t : Target} {m : Method} {terminal : Bool} {f : Fragment}

theorem resolve_eq_ok_iff {p : Pool} {name : String} {u : TypeDecl} :
    p.resolve name = .ok u ↔ p.find? name = some u := by
  unfold Pool.resolve
  cases p.find? name <;> simp

theorem orRefuse_eq_ok_iff {α : Type} {x : Option α} {cause : Refusal} {a : α} :
    orRefuse x cause = .ok a ↔ x = some a := by
  cases x <;> simp [orRefuse]

theorem refuseIf_eq_ok_iff {fault : Bool} {cause : Refusal} {u : Unit} :
    refuseIf fault cause = .ok u ↔ fault = false := by
  cases fault <;> simp [refuseIf]

theorem finishes_stub (m : Method) (terminal : Bool) :
    (stubFragment m terminal).Finishes m [] terminal := by
  cases terminal with
  | false => exact finishes_empty m
  | true =>
    refine (moves_pushDefault m m.returnType).cons_finishes (height_le_frameLimit ?_)
      (finishes_ret rfl).join_singleton
    cases ValueKind.of m.returnType <;> simp

/-- A constant, returned by a method whose values are of its kind. -/
theorem finishes_constant {c : Constant} {t : TypeRef} (hc : c.push.isLegal = true)
    (ht : ValueKind.of t = some c.valueKind) (hm : ValueKind.of t = ValueKind.of m.returnType) :
    (join [c.push, ret t]).Finishes m [] terminal :=
  (Constant.moves_push hc m []).cons_finishes (height_le_frameLimit (by simp))
    (finishes_ret_value ht hm).join_singleton

theorem finishes_fixed {p : Pool} {c : Constant} (h : fixedFragment p c m terminal = .ok f)
    (hlegal : f.isLegal = true) : f.Finishes m [] terminal := by
  unfold fixedFragment at h
  obtain ⟨_, hfits, h⟩ := ok_of_bind h
  obtain rfl := Except.ok.inj h
  cases terminal with
  | false => exact finishes_empty m
  | true =>
    simp only [if_true, isLegal_join, List.all_cons, Bool.and_eq_true] at hlegal
    have hfits : c.fits p m.returnType = true := by simpa using refuseIf_eq_ok_iff.1 hfits
    exact finishes_constant hlegal.1 (Constant.kind_of_fits hfits) rfl

/-- The constructor of an exception takes the message, if there is one. -/
theorem kinds_of_exceptionConstructor {type : TypeDecl} {message : Option String} {c : Method}
    (h : exceptionConstructor? t type message = some c) :
    (∀ s ∈ c.parameterTypes, s.HasReferenceBound) ∧
      c.parameterTypes.map ValueKind.of = (message.toList.map fun _ => .reference).map some := by
  have herased : c.erasedParameterTypes = message.toList.map fun _ => .named BinaryName.string := by
    have hc := List.find?_some h
    simp only [Bool.and_eq_true, decide_eq_true_eq] at hc
    exact hc.1.2
  refine ⟨fun s hs => ?_, ?_⟩
  · have hs : s.erasure ∈ c.erasedParameterTypes :=
      c.map_erasure_parameterTypes ▸ List.mem_map_of_mem hs
    rw [herased] at hs
    obtain ⟨_, _, hs⟩ := List.mem_map.1 hs
    exact (TypeRef.hasReferenceBound_of_erasure hs.symm).1
  · calc c.parameterTypes.map ValueKind.of
        = c.erasedParameterTypes.map ValueKind.ofErased := c.kinds_erasedParameterTypes.symm
      _ = (message.toList.map fun _ => .reference).map some := by
          rw [herased, List.map_map, List.map_map]
          rfl

theorem finishes_throw (ht : t.HasReferenceBounds) {exception : String} {message : Option String}
    (h : throwFragment t exception message = .ok f) : f.Finishes m [] terminal := by
  unfold throwFragment at h
  obtain ⟨type, htype, h⟩ := ok_of_bind h
  obtain ⟨_, _, h⟩ := ok_of_bind h
  obtain ⟨c, hc, h⟩ := ok_of_bind h
  obtain rfl := Except.ok.inj h
  replace hc := orRefuse_eq_ok_iff.1 hc
  have hvoid : c.returnType = .void := by
    have htype : type ∈ t.pool.types := Pool.mem_of_find? (resolve_eq_ok_iff.1 htype)
    have hconstructor := List.find?_some hc
    simp only [Bool.and_eq_true] at hconstructor
    exact ht.constructors type htype c (List.mem_of_find?_eq_some hc) hconstructor.1.1
  obtain ⟨hbounds, hkinds⟩ := kinds_of_exceptionConstructor hc
  have hcall := moves_invokeOn ⟨by rw [hvoid]; trivial, hbounds⟩ hkinds c.owner .special m
    [.reference]
  rw [hvoid] at hcall
  have hthrow : Fragment.throw.Finishes m [.reference] terminal :=
    .leaves (height_le_frameLimit (by simp)) rfl (exits_throw m)
  refine (moves_newInstance m exception []).cons_finishes (height_le_frameLimit (by simp)) ?_
  -- the constructor takes the message and one of the two references, the throw takes the other
  cases message with
  | none =>
    exact (moves_empty m _).cons_finishes (Nat.zero_le _)
      (hcall.cons_finishes (Nat.max_le.2 ⟨height_le_frameLimit (by decide),
        height_le_frameLimit (by decide)⟩) hthrow.join_singleton)
  | some text =>
    have htext := moves_push (m := m) (s := [.reference, .reference]) (.pushText text) .reference
      fun _ => rfl
    exact htext.cons_finishes (height_le_frameLimit (by simp))
      (hcall.cons_finishes (Nat.max_le.2 ⟨height_le_frameLimit (by simp [receiverKinds]),
        height_le_frameLimit (by decide)⟩) hthrow.join_singleton)

/-- The field that is found is one of those that the target knows. -/
theorem hasReferenceBound_of_locate (ht : t.HasReferenceBounds) {name : String} {field : Field}
    (h : (FieldLocator.inHierarchy t.pool t.type t.type).locate? t.pool name = some field) :
    field.type.HasReferenceBound := by
  obtain ⟨u, hu, hfield⟩ := FieldLocator.mem_of_find? h
  have hknown : u ∈ t.type :: t.pool.types := by
    obtain rfl | h := (Pool.reachesOutside_of_mem_hierarchy hu).reaches.eq_or_knows
    · exact List.mem_cons_self
    · exact List.mem_cons_of_mem _ h.mem
  exact ht.fields u hknown field hfield

/-- What a method loads before it accesses a field. -/
theorem moves_fieldReceiver {field : Field} (h : (m.isStatic && !field.isStatic) = false) :
    (if field.isStatic then .empty else loadThis : Fragment).Moves m [] (fieldReceiverKinds field)
      (height (fieldReceiverKinds field)) := by
  unfold fieldReceiverKinds
  cases hfield : field.isStatic with
  | true => exact moves_empty m []
  | false => exact moves_loadThis (by simpa [hfield] using h)

theorem finishes_field (ht : t.HasReferenceBounds) (hm : m.HasReferenceBounds) {name : String}
    (h : fieldFragment t name m terminal = .ok f) (hlegal : f.isLegal = true) :
    f.Finishes m [] terminal := by
  unfold fieldFragment at h
  obtain ⟨field, hfield, h⟩ := ok_of_bind h
  obtain ⟨_, hstatic, h⟩ := ok_of_bind h
  have hbound := hasReferenceBound_of_locate ht (orRefuse_eq_ok_iff.1 hfield)
  have hreceiver := moves_fieldReceiver (refuseIf_eq_ok_iff.1 hstatic)
  have hlength : (fieldReceiverKinds field).length ≤ 1 := by
    unfold fieldReceiverKinds
    split <;> decide
  dsimp only at h
  split at h
  -- the field is read
  · rename_i hvoid
    split at h
    · rename_i hterminal
      obtain rfl := Except.ok.inj h
      obtain rfl : terminal = false := by simpa using hterminal
      exact finishes_empty m
    · obtain ⟨conversion, hconversion, h⟩ := ok_of_bind h
      obtain rfl := Except.ok.inj h
      obtain ⟨rfl, hkinds⟩ := kind_of_assign (orRefuse_eq_ok_iff.1 hconversion)
      cases hkind : ValueKind.of m.returnType with
      | none =>
        rw [TypeRef.eq_void_of_kind hm.returnType hkind] at hvoid
        cases hvoid
      | some kind =>
        have hread := moves_getField (m := m) (s := []) hbound (hkinds.trans hkind)
        rw [List.append_nil] at hread
        exact hreceiver.cons_finishes (height_le_frameLimit (by omega))
          (hread.cons_finishes (height_le_frameLimit (by simp))
            ((moves_empty m _).cons_finishes (Nat.zero_le _)
              (finishes_ret_value hkind rfl).join_singleton))
  -- the field is written
  · rename_i value hparameters hvoid
    obtain ⟨_, _, h⟩ := ok_of_bind h
    obtain ⟨conversion, hconversion, h⟩ := ok_of_bind h
    obtain rfl := Except.ok.inj h
    obtain ⟨rfl, hkinds⟩ := kind_of_assign (orRefuse_eq_ok_iff.1 hconversion)
    have hvalue : m.parameterTypes = [value.type] := by
      simp [MethodToken.parameterTypes, hparameters]
    simp only [isLegal_join, List.all_cons, Bool.and_eq_true] at hlegal
    obtain ⟨kind, hkind, _⟩ := pushes_load hlegal.2.1
    have hslots : ∀ s ∈ m.parameterTypes, 0 < s.slots := by
      simpa [hvalue] using TypeRef.slots_pos hkind
    have hparameter : m.parameterTypes[0]? = some value.type := by rw [hvalue]; rfl
    have hload := moves_load_parameter (s := fieldReceiverKinds field) hslots hparameter
      (hm.parameterTypes _ (List.mem_of_getElem? hparameter)) hkind
    have hwrite := moves_putField (m := m) (s := []) hbound (hkinds.symm.trans hkind)
    rw [List.append_nil] at hwrite
    have hsize : height (kind :: fieldReceiverKinds field) ≤ Code.frameLimit :=
      height_le_frameLimit (by rw [List.length_cons]; omega)
    exact hreceiver.cons_finishes (height_le_frameLimit (by omega))
      (hload.cons_finishes hsize ((moves_empty m _).cons_finishes (Nat.zero_le _)
        (hwrite.cons_finishes hsize
          (finishes_end fun _ => TypeRef.isVoid_iff.1 hvoid).join_singleton)))
  · cases h

/-- The call of a helper leaves its result on the stack. -/
theorem moves_callHelper (name owner : String) {returnType : TypeRef} {kind : ValueKind}
    (hbound : returnType.HasReferenceBound) (hkind : ValueKind.of returnType = some kind)
    (m : Method) :
    (invoke ((helperToken name returnType).attach owner) .static).Moves m [] [kind]
      (height [kind]) := by
  have hcall := @moves_invokeOn ((helperToken name returnType).attach owner) []
    ⟨TypeRef.hasReferenceBound_attach owner hbound, nofun⟩ rfl owner .static m []
  have hresult : ValueKind.of ((helperToken name returnType).attach owner).returnType = some kind :=
    (TypeRef.kind_attach owner returnType).trans hkind
  rw [hresult] at hcall
  have hpeak : max (height []) (height [kind]) = height [kind] := Nat.zero_max _
  rw [← hpeak]
  exact hcall

theorem finishes_helper {name : String} {returnType : TypeRef} {value : Constant}
    (hbound : returnType.HasReferenceBound)
    (h : helperFragment t name returnType value m terminal = .ok f) (hlegal : f.isLegal = true) :
    f.Finishes m [] terminal := by
  unfold helperFragment at h
  obtain ⟨_, hfits, h⟩ := ok_of_bind h
  have hfits : value.fits t.pool returnType = true := by simpa using refuseIf_eq_ok_iff.1 hfits
  have hkind := Constant.kind_of_fits hfits
  have hcall := moves_callHelper name t.type.name hbound hkind m
  dsimp only at h
  split at h
  -- the method is the helper
  · rename_i hself
    obtain rfl := Except.ok.inj h
    simp only [isLegal_join, List.all_cons, Bool.and_eq_true] at hlegal
    have herased : m.returnType.erasure = (returnType.attach t.type.name).erasure :=
      congrArg (·.returnType) hself
    refine finishes_constant hlegal.1 hkind ?_
    rw [← TypeRef.kind_attach t.type.name returnType]
    exact congrArg ValueKind.ofErased herased.symm
  · split at h
    -- the result is dropped
    · rename_i hdropped
      obtain rfl := Except.ok.inj h
      have hpop := moves_pop m value.valueKind []
      rw [← TypeRef.slots_of_kind hbound hkind] at hpop
      refine hcall.cons_finishes (height_le_frameLimit (by simp))
        (hpop.cons_finishes (height_le_frameLimit (by simp)) (finishes_end ?_).join_singleton)
      rintro rfl
      simpa using hdropped
    -- the result is returned
    · obtain ⟨conversion, hconversion, h⟩ := ok_of_bind h
      obtain rfl := Except.ok.inj h
      obtain ⟨rfl, hkinds⟩ := kind_of_assign (orRefuse_eq_ok_iff.1 hconversion)
      have hreturned : ValueKind.of m.returnType = some value.valueKind := hkinds.symm.trans hkind
      exact hcall.cons_finishes (height_le_frameLimit (by simp))
        ((moves_empty m _).cons_finishes (Nat.zero_le _)
          (finishes_ret_value hreturned rfl).join_singleton)

/-! ### All implementations -/

/-- Nothing is called on the superclass, and type variables in the results of helpers stand for
references. -/
inductive IsStandalone : Implementation → Prop where
  | stub : IsStandalone stub
  | fixed (value : Constant) : IsStandalone (fixed value)
  | throwNew (exception : String) (message : Option String) :
    IsStandalone (throwNew exception message)
  | accessField (name : String) (define : Option TypeRef) : IsStandalone (accessField name define)
  | callHelper (name : String) {returnType : TypeRef} (value : Constant)
    (h : returnType.HasReferenceBound) : IsStandalone (callHelper name returnType value)
  | sequence {parts : List Implementation} (h : ∀ i ∈ parts, IsStandalone i) :
    IsStandalone (sequence parts)

/-- **Parts in order**, if each of them does what it is expected to. -/
theorem finishes_fragments {parts : List Implementation} {fs : List Fragment}
    (hparts : ∀ i ∈ parts, ∀ {terminal f}, i.fragment t m terminal = .ok f → f.isLegal = true →
      f.Finishes m [] terminal)
    (hne : parts ≠ []) (h : fragments t m terminal parts = .ok fs)
    (hlegal : ∀ f ∈ fs, f.isLegal = true) : (join fs).Finishes m [] terminal := by
  induction parts generalizing fs with
  | nil => exact absurd rfl hne
  | cons i is ih =>
    rw [List.forall_mem_cons] at hparts
    cases is with
    | nil =>
      obtain ⟨f, hf, h⟩ := ok_of_bind h
      obtain rfl := Except.ok.inj h
      exact (hparts.1 hf (hlegal f List.mem_cons_self)).join_singleton
    | cons j js =>
      obtain ⟨f, hf, h⟩ := ok_of_bind h
      obtain ⟨rest, hrest, h⟩ := ok_of_bind h
      obtain rfl := Except.ok.inj h
      rw [List.forall_mem_cons] at hlegal
      exact (hparts.1 hf hlegal.1).cons (ih hparts.2 nofun hrest hlegal.2)

/-- **The fragment of an implementation** gives the stack back or leaves the method. -/
theorem IsStandalone.finishes {i : Implementation} (hi : i.IsStandalone)
    (ht : t.HasReferenceBounds) (hm : m.HasReferenceBounds) (h : i.fragment t m terminal = .ok f)
    (hlegal : f.isLegal = true) : f.Finishes m [] terminal := by
  induction hi generalizing terminal f with
  | stub =>
    obtain rfl := Except.ok.inj h
    exact finishes_stub m terminal
  | fixed value => exact finishes_fixed h hlegal
  | throwNew exception message => exact finishes_throw ht h
  | accessField name define => exact finishes_field ht hm h hlegal
  | callHelper name value hbound => exact finishes_helper hbound h hlegal
  | @sequence parts _ ih =>
    rw [fragment] at h
    obtain ⟨_, hne, h⟩ := ok_of_bind h
    obtain ⟨fs, hfs, h⟩ := ok_of_bind h
    obtain rfl := Except.ok.inj h
    rw [isLegal_join, List.all_eq_true] at hlegal
    refine finishes_fragments (fun i hi => ih i hi) ?_ hfs hlegal
    simpa using refuseIf_eq_ok_iff.1 hne

/-- **Generated code passes the check.** Whatever code an implementation becomes that calls nothing
on the superclass, it runs from an empty stack to a throw or to the return of its method without
missing a value or finding one of another kind, in the frame that is written with it. -/
theorem generated_code_verifies {i : Implementation} {code : Code} (hi : i.IsStandalone)
    (ht : t.HasReferenceBounds) (hm : m.HasReferenceBounds)
    (h : (Appender.implementation i t).apply m = .ok code) : code.Verifies m := by
  rw [Appender.apply] at h
  obtain ⟨f, hf, h⟩ := ok_of_bind h
  unfold Appender.codeOf at h
  split at h
  · rename_i hlegal
    obtain rfl := Except.ok.inj h
    exact (hi.finishes ht hm hf hlegal).verifies
  · cases h

/-- A setter that logs and then fails. The long value takes two slots, the result of the helper is
dropped, and nothing reaches the return. -/
theorem generated_code_verifies_unreached :
    let long : TypeRef := .primitive .long
    let put : Method :=
      { owner := "a.Count", name := "put", modifiers := .of [.accPublic]
        parameters := [{ type := long }] }
    let count : TypeDecl :=
      { name := "a.Count", modifiers := .of [.accPublic]
        fields := [{ owner := "a.Count", name := "count", modifiers := .empty, type := long }] }
    let failure : TypeDecl :=
      { name := "a.Failure", modifiers := .of [.accPublic]
        superclass := some (.named BinaryName.throwable)
        methods := [{ MethodToken.constructor (.of [.accPublic]) [] with owner := "a.Failure" }] }
    let t : Target := { type := count, pool := Pool.empty.register failure, superGraph := .empty }
    let i : Implementation :=
      .sequence [.callHelper "log" (.primitive .int) (.int 7), .accessField "count" none,
        .sequence [.throwNew "a.Failure" none, .stub]]
    ∃ code, (Appender.implementation i t).apply put = .ok code ∧
      code.instructions =
        [.invoke .static ⟨"a.Count", "log", .primitive .int, []⟩, .pop,
          .load .reference 0, .load .long 1, .putField ⟨"a.Count", "count", long⟩,
          .new "a.Failure", .dup, .invoke .special ⟨"a.Failure", constructorName, .void, []⟩,
          .throw, .ret none] ∧
        code.Verifies put := by
  intro long put count failure t i
  have happly : ((Appender.implementation i t).apply put).toOption.any (fun code =>
      decide (code.instructions =
        [.invoke .static ⟨"a.Count", "log", .primitive .int, []⟩, .pop,
          .load .reference 0, .load .long 1, .putField ⟨"a.Count", "count", long⟩,
          .new "a.Failure", .dup, .invoke .special ⟨"a.Failure", constructorName, .void, []⟩,
          .throw, .ret none])) = true := by
    decide +kernel
  obtain ⟨code, hcode, hinstructions⟩ := exists_ok_of_any happly
  have hi : i.IsStandalone := by
    refine .sequence ?_
    simp only [List.forall_mem_cons, List.not_mem_nil, false_imp_iff, implies_true, and_true]
    refine ⟨.callHelper _ _ trivial, .accessField _ _, .sequence ?_⟩
    simp only [List.forall_mem_cons, List.not_mem_nil, false_imp_iff, implies_true, and_true]
    exact ⟨.throwNew _ _, .stub⟩
  exact ⟨code, hcode, of_decide_eq_true hinstructions,
    generated_code_verifies hi ⟨by decide, by decide⟩ ⟨by decide, by decide⟩ hcode⟩

end Implementation

end ClassForge
