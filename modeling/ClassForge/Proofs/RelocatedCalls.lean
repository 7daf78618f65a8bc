import ClassForge.Proofs.Relocations
import ClassForge.Proofs.SuperConstructors

/-!
# Calls of code that was moved aside

A super call of a method whose code was moved goes to the moved code. Three places have a say in it.
What is loaded comes from the method as it is declared, with its type variables. What is invoked
comes from the moved method, with erased types and, for a constructor, one parameter more; the plan
says what is pushed for that. And the opcode comes from the flags that the moved method was given.

The kinds of value agree in all of them, because the moved method is found by its erased signature,
and erasure keeps kinds. What is loaded can be named in a class file if the method that asks fits a
frame.

The method that is found need not be the one that asks: signatures leave the owner out, and of two
methods with one signature but different owners the later counts. So a type that declares a method
under the name of another owner may call the code of the wrong method, and the receiver is then
right for one of them only (`Target.super_call_reaches_namesake`).

## Main definitions

* `Code.CallsMoved` — the code calls moved code, and nothing else

## Main results

* `RelocationPlan.exists_bySignature_of_isMoved` — what is found for a method that was moved
* `Relocation.kinds_move` — what the moved code takes and returns
* `Target.super_calls_reach_moved_code` — the code of super calls of methods that were moved
-/

namespace ClassForge

/-! ### Which moved code is found -/

namespace RelocationPlan

variable {plan : RelocationPlan} {t : TypeDecl} {tokens : List MethodToken} {suffix : String}
  {naming : Naming} {m : Method}

/-- What was moved is kept by its identity. -/
theorem get?_of_isMoved (h : (plan.find m).isMoved = true) :
    plan.moves.get? m.identity = some (plan.find m) := by
  rw [find] at h ⊢
  cases hget : plan.moves.get? m.identity with
  | none =>
    rw [hget] at h
    cases h
  | some r => rfl

/-- By the signature of an identity something is found, and that is kept by an identity with the
signature. -/
theorem exists_get?_bySignature {k : MethodIdentity} {r : Relocation}
    (h : plan.moves.get? k = some r) :
    ∃ l r', l.toSignature = k.toSignature ∧ plan.moves.get? l = some r' ∧
      plan.bySignature.get? k.toSignature = some r' := by
  have hkey : k.toSignature ∈
      (plan.moves.entries.map fun e => (e.1.toSignature, e.2)).map Prod.fst := by
    rw [List.map_map]
    exact List.mem_map_of_mem (f := fun e => e.1.toSignature)
      ((OrderedMap.get?_eq_some_iff _).1 h)
  obtain ⟨r', hr, hmem⟩ := OrderedMap.exists_get?_ofList hkey
  obtain ⟨⟨l, _⟩, he, heq⟩ := List.mem_map.1 hmem
  obtain ⟨hsignature, rfl⟩ := Prod.mk.inj heq
  exact ⟨l, _, hsignature, (OrderedMap.get?_eq_some_iff _).2 he, hr⟩

/-- What is moved is one of the chosen methods. -/
theorem exists_chosen_of_get? {k : MethodIdentity} {r : Relocation}
    (h : (of t tokens suffix naming).moves.get? k = some r) :
    ∃ n ∈ t.chosen tokens, n.identity = k ∧ move t suffix naming n = r := by
  obtain ⟨n, hn, heq⟩ := List.mem_map.1 (OrderedMap.mem_of_get?_ofList h)
  exact ⟨n, hn, congrArg Prod.fst heq, congrArg Prod.snd heq⟩

/-- **What is found for a method that was moved**: the code of a chosen method with its signature,
and that of the method itself unless the signature is shared with a method of another owner. -/
theorem exists_bySignature_of_isMoved (h : ((of t tokens suffix naming).find m).isMoved = true) :
    ∃ n ∈ t.chosen tokens, n.signature = m.signature ∧
      (of t tokens suffix naming).bySignature.get? m.signature = some (move t suffix naming n) ∧
      ((∀ n ∈ t.chosen tokens, n.signature = m.signature → n.owner = m.owner) →
        move t suffix naming n = (of t tokens suffix naming).find m) := by
  have hm := get?_of_isMoved h
  obtain ⟨_, _, hsignature, hget, hfound⟩ := exists_get?_bySignature hm
  obtain ⟨n, hn, rfl, rfl⟩ := exists_chosen_of_get? hget
  refine ⟨n, hn, hsignature, hfound, fun howner => ?_⟩
  have hown : n.identity = m.identity :=
    congrArg₂ MethodIdentity.mk hsignature (howner n hn hsignature)
  rw [hown, hm] at hget
  exact (Option.some.inj hget).symm

end RelocationPlan

/-! ### What moved code takes -/

theorem Method.isConstructor_of_signature {m n : Method} (h : n.signature = m.signature) :
    n.isConstructor = m.isConstructor := by
  rw [isConstructor, isConstructor, (Signature.mk.inj h).2]

namespace Relocation

variable {m n : Method}

/-- **What moved code takes and returns**, in terms of a method with the signature of the method
that was moved: values of the kinds of its parameters, and what the plan says is pushed besides. -/
theorem kinds_move (t : TypeDecl) (suffix : String) (naming : Naming)
    (hsignature : n.signature = m.signature)
    (hvoid : m.isConstructor = true → m.returnType = .void) :
    ∃ additional, ∃ more : List ValueKind,
      (RelocationPlan.move t suffix naming n).additionalArguments = .ok additional ∧
      additional.isLegal = true ∧ (∀ i ∈ additional.instructions, i.slot? = none) ∧
      (∀ (c : Method) (s : List ValueKind),
        c.stackAfter? s additional.instructions = some (more.reverse ++ s)) ∧
      (RelocationPlan.move t suffix naming n).method.parameterTypes.map ValueKind.of =
        m.parameterTypes.map ValueKind.of ++ more.map some ∧
      ValueKind.of (RelocationPlan.move t suffix naming n).method.returnType =
        ValueKind.of m.returnType := by
  obtain ⟨hreturn, hparameters⟩ := MethodType.mk.inj (Signature.mk.inj hsignature).1
  have herased (ts : List TypeRef) (h : ts = m.erasedParameterTypes) :
      ts.map ValueKind.of = m.parameterTypes.map ValueKind.of := by
    rw [h, ← m.map_erasure_parameterTypes, List.map_map]
    exact List.map_congr_left fun u _ => ValueKind.of_erasure u
  rw [RelocationPlan.move]
  split
  · rename_i hn
    have hr := isPadded_pad (RelocationPlan.placeholderFor t suffix) n
    refine ⟨.pushNull, [.reference], rfl, rfl, by decide, fun c s => ?_, ?_, ?_⟩
    · simp [Fragment.pushNull, Fragment.instructions, Method.stackAfter?, Checker.exchange?]
    · rw [hr.parameterTypes, List.map_append, herased _ hparameters]
      rfl
    · rw [hr.returnType, hvoid (Method.isConstructor_of_signature hsignature ▸ hn)]
  · have hr := isRenamed_rename t naming n
    refine ⟨.empty, [], rfl, rfl, by decide, fun _ _ => rfl, ?_, ?_⟩
    · rw [hr.parameterTypes, herased _ hparameters, List.map_nil, List.append_nil]
    · rw [hr.returnType, hreturn, ValueKind.of_erasure]

/-- Moved code has no receiver if the method that was moved had none. A constructor always has
one. -/
theorem isStatic_move (t : TypeDecl) (suffix : String) (naming : Naming) (n : Method) :
    (RelocationPlan.move t suffix naming n).method.isStatic =
      (!n.isConstructor && n.isStatic) := by
  rw [RelocationPlan.move, Bool.eq_iff_iff]
  split
  · rename_i hn
    rw [Method.isStatic, (isPadded_pad (RelocationPlan.placeholderFor t suffix) n).flags]
    simp [hn]
  · rename_i hn
    rw [Method.isStatic, (isRenamed_rename t naming n).flags]
    cases t.isInterface <;> simp [Bool.eq_false_iff.2 hn, Method.isStatic]

end Relocation

/-! ### The code of a call -/

/-- The code of `m` loads what `m` is called with and the additional arguments of the moved code
`r`, calls that on the type `t`, and returns what it returns as `m` does. Before the call there is
the receiver on the stack, if `m` has one, and a value for each parameter in the descriptor of the
method that is called, of the kind of the parameter. -/
structure Code.CallsMoved (code : Code) (t : TypeDecl) (m : Method) (r : Relocation)
    (additional : Fragment) (arguments : List ValueKind) : Prop where
  additionalArguments : r.additionalArguments = .ok additional
  instructions : code.instructions =
    (Fragment.loadArguments m (!m.isStatic)).instructions ++ additional.instructions ++
      [.invoke (if r.method.isStatic then .static else .special)
        ⟨t.name, r.method.name, r.method.type⟩, .ret (ValueKind.of m.returnType)]
  operands : m.stackAfter? []
      ((Fragment.loadArguments m (!m.isStatic)).instructions ++ additional.instructions) =
    some (arguments.reverse ++ if m.isStatic then [] else [.reference])
  parameters : r.method.type.parameterTypes.map ValueKind.ofErased = arguments.map some
  result : ValueKind.of r.method.returnType = ValueKind.of m.returnType

/-- A call with all arguments leaves its result alone on the stack exactly if there is a receiver
below them where the opcode takes one. -/
theorem Method.stackAfter?_invoke_iff {m r : Method} {arguments : List ValueKind}
    (h : r.type.parameterTypes.map ValueKind.ofErased = arguments.map some) (owner : String)
    (static : Bool) :
    m.stackAfter? (arguments.reverse ++ if static then [] else [.reference])
        [.invoke (if r.isStatic then .static else .special) ⟨owner, r.name, r.type⟩] =
      some (ValueKind.of r.returnType).toList ↔ r.isStatic = static := by
  have harguments := mapM_eq_some_iff.2 h
  have hresult : ValueKind.ofErased r.type.returnType = ValueKind.of r.returnType := rfl
  have hwhole (s : List ValueKind) : s.dropPrefix? s = some [] := by
    simpa using List.dropPrefix?_append_of_beq [] (beq_self_eq_true s)
  simp only [stackAfter?, Checker.exchange?, harguments, hresult, Option.bind_eq_bind,
    Option.bind_some]
  cases hr : r.isStatic <;> cases static
  · simp [hwhole]
  -- the opcode takes a receiver that is not there
  · simp only [Bool.false_eq_true, if_false, reduceCtorEq, iff_false, Option.bind_eq_some_iff,
      List.dropPrefix?_eq_some_iff, beq_iff_eq]
    rintro ⟨_, ⟨_, hstack, rfl⟩, -⟩
    have hlength := congrArg List.length hstack
    simp at hlength
  -- a receiver is left over
  · simp [List.dropPrefix?_append_of_beq]
  · simp [hwhole]

namespace Code.CallsMoved

variable {code : Code} {t : TypeDecl} {m : Method} {r : Relocation} {additional : Fragment}
  {arguments : List ValueKind}

/-- The call comes to its return exactly if moved code and method agree about the receiver. -/
theorem returnsExactly_iff (h : code.CallsMoved t m r additional arguments) :
    code.ReturnsExactly m ↔ r.method.isStatic = m.isStatic := by
  have hsplit := h.instructions
  rw [← List.singleton_append, ← List.append_assoc] at hsplit
  rw [Code.returnsExactly_iff _ hsplit, Method.stackAfter?_append, h.operands, Option.bind_some,
    ← h.result, Method.stackAfter?_invoke_iff h.parameters]

end Code.CallsMoved

namespace Target

open RelocationPlan

variable {t : TypeDecl} {tokens : List MethodToken} {suffix : String} {naming : Naming}
  {m : Method}

/-- **Super calls of methods whose code was moved.** If all that the method is called with fits a
frame, such a call always becomes code, which has the widths of a class file. It hands the receiver
and all arguments over to the moved code of a method with the same erased signature, the additional
argument of a constructor included, and returns what that returns. If no other method with the
signature is moved that names another owner, this is the code of the method itself. The code comes
to its return with what is returned if the method is a constructor, and otherwise if both methods
are static or neither is. -/
theorem super_calls_reach_moved_code (g : LinkedGraph) (p : Pool)
    (hmoved : ((of t tokens suffix naming).find m).isMoved = true)
    (hbounds : m.HasReferenceBounds) (hvalues : ∀ u ∈ m.parameterTypes, u ≠ .void)
    (hconstructor : m.isConstructor = true → m.isStatic = false ∧ m.returnType = .void)
    (hframe : m.FitsFrame) :
    ∃ code additional arguments, ∃ n ∈ t.chosen tokens, n.signature = m.signature ∧
      (Appender.implementation .callSuper (.make t g p (of t tokens suffix naming))).apply m =
        .ok code ∧
      code.FitsWidths ∧
      code.CallsMoved t m (move t suffix naming n) additional arguments ∧
      ((∀ n ∈ t.chosen tokens, n.signature = m.signature → n.owner = m.owner) →
        move t suffix naming n = (of t tokens suffix naming).find m) ∧
      (code.ReturnsExactly m ↔ m.isConstructor = true ∨ n.isStatic = m.isStatic) := by
  obtain ⟨n, hn, hsignature, hget, hown⟩ := exists_bySignature_of_isMoved hmoved
  obtain ⟨additional, more, hadditional, hlegal, hslots, hpushed, hparameters, hresult⟩ :=
    Relocation.kinds_move t suffix naming hsignature fun h => (hconstructor h).2
  obtain ⟨kinds, hkinds⟩ := ValueKind.exists_kinds hbounds.parameterTypes hvalues
  have hcall : (Target.make t g p (of t tokens suffix naming)).superCall? m.signature =
      (Target.make t g p (of t tokens suffix naming)).relocatedCall? (move t suffix naming n) := by
    rw [superCall?, make, hget]
  rw [relocatedCall?, hadditional] at hcall
  obtain ⟨code, hcode, hinstructions⟩ := Appender.exists_code_of_superCall hcall
    (Method.isLegal_loadArguments_iff.2 ⟨kinds, hkinds⟩) hlegal
  have hcalls : code.CallsMoved t m (move t suffix naming n) additional (kinds ++ more) := by
    refine ⟨hadditional, hinstructions, ?_, ?_, hresult⟩
    · rw [Method.stackAfter?_append, Method.stackAfter?_loadArguments hbounds hkinds,
        Option.bind_some, hpushed, List.reverse_append, List.append_assoc]
    · rw [List.map_append, ← hkinds, ← hparameters]
      exact Method.kinds_erasedParameterTypes _
  have hwidths : code.FitsWidths := by
    refine (Appender.fitsFrame_of_apply hframe hcode).fitsWidths hframe _
      (hinstructions.trans (List.append_assoc ..)) (List.forall_mem_append.2 ⟨hslots, ?_⟩)
    simp [Instruction.slot?]
  refine ⟨code, additional, kinds ++ more, n, hn, hsignature, hcode, hwidths, hcalls, hown, ?_⟩
  rw [hcalls.returnsExactly_iff, Relocation.isStatic_move,
    Method.isConstructor_of_signature hsignature]
  cases hm : m.isConstructor with
  | true => simp [(hconstructor hm).1]
  | false => simp

/-- The code of a constructor with a value of two slots and one of a type variable is moved to a
constructor that takes `null` as well. -/
theorem super_calls_reach_moved_code_padded :
    let init : Method :=
      { owner := "a.Box", name := constructorName, modifiers := .of [.accPublic]
        parameters := [{ type := .primitive .long }, { type := .typeVar "T" (.named "a.Item") }] }
    let t : TypeDecl :=
      { name := "a.Box", modifiers := .of [.accPublic]
        typeVariables := [{ symbol := "T", bound := .named "a.Item" }], methods := [init] }
    let plan := RelocationPlan.of t [init.detach] "original" .default
    let g := GraphScope.hierarchy.compile .empty t
    ∃ code additional, (plan.find init).isMoved = true ∧
      (Appender.implementation .callSuper (.make t g .empty plan)).apply init = .ok code ∧
      code.FitsWidths ∧
      code.CallsMoved t init (plan.find init) additional [.long, .reference, .reference] ∧
      code.ReturnsExactly init := by
  intro init t plan g
  have hmoved : (plan.find init).isMoved = true := by decide +kernel
  have hall : t.chosen [init.detach] = [init] := by decide +kernel
  obtain ⟨code, additional, arguments, n, hn, -, happly, hwidths, hcalls, hown, hreturns⟩ :=
    super_calls_reach_moved_code g .empty hmoved (by decide) (by decide) (by decide) (by decide)
  rw [hall, List.mem_singleton] at hn
  subst hn
  rw [hown (by rw [hall]; simp)] at hcalls
  have hkinds : (plan.find init).method.type.parameterTypes.map ValueKind.ofErased =
      [.long, .reference, .reference].map some := by
    decide +kernel
  obtain rfl : arguments = [.long, .reference, .reference] :=
    (List.map_inj_right fun _ _ => Option.some.inj).1 (hcalls.parameters.symm.trans hkinds)
  exact ⟨code, additional, hmoved, happly, hwidths, hcalls, hreturns.2 (.inl (by decide))⟩

/-- Two methods with one signature have different owners, and the code of both is moved. The static
one calls the code of the other, which takes a receiver, and no receiver is loaded. -/
theorem super_call_reaches_namesake :
    let declare (owner : String) (flags : List Flag) : Method :=
      { owner, name := "run", modifiers := .of flags }
    let own := declare "a.Box" [.accPublic, .accStatic]
    let other := declare "a.Other" [.accPublic]
    let t : TypeDecl := { name := "a.Box", modifiers := .of [.accPublic], methods := [own, other] }
    let plan := RelocationPlan.of t (t.methods.map (·.detach)) "original" .default
    let g := GraphScope.hierarchy.compile .empty t
    (plan.find own).isMoved = true ∧ (plan.find own).method.isStatic = true ∧
      ∃ code, (Appender.implementation .callSuper (.make t g .empty plan)).apply own = .ok code ∧
        code.instructions =
          [.invoke .special ⟨"a.Box", (plan.find other).method.name, .void, []⟩, .ret none] ∧
        (¬ ∃ additional arguments, code.CallsMoved t own (plan.find own) additional arguments) ∧
        ¬ code.ReturnsExactly own := by
  intro declare own other t plan g
  have hmoved : (plan.find own).isMoved = true ∧ (plan.find own).method.isStatic = true := by
    decide +kernel
  have happly : ((Appender.implementation .callSuper
      (.make t g .empty plan)).apply own).toOption.any (fun code =>
        decide (code.instructions =
          [.invoke .special ⟨"a.Box", (plan.find other).method.name, .void, []⟩, .ret none])) =
      true := by
    decide +kernel
  obtain ⟨code, hcode, hinstructions⟩ := exists_ok_of_any happly
  replace hinstructions := of_decide_eq_true hinstructions
  refine ⟨hmoved.1, hmoved.2, code, hcode, hinstructions, ?_, ?_⟩
  · rintro ⟨additional, arguments, hcalls⟩
    have hlast := (List.append_inj' (hcalls.instructions.symm.trans
      (hinstructions.trans (List.nil_append _).symm)) rfl).2
    rw [if_pos hmoved.2] at hlast
    cases hlast
  · rw [Code.returnsExactly_iff [_] hinstructions]
    decide

end Target

end ClassForge
