import ClassForge.Proofs.FamilyKinds
import ClassForge.Proofs.FrameWidths

/-!
# Super calls

A super call is generated from two sides. What is loaded and what is returned is read off the method
that gets the code; what is invoked is read off the method that the superclass answers with. The
superclass is asked by name and erased parameter types, and nothing else has to match: not the
return type, and not whether the calling method has a receiver at all.

So the two sides meet in the parameters and may miss each other in the rest. Arguments are as many
as the invoked method takes, and of its kinds as long as type arguments stand for references. But a
static method loads no receiver, and the instruction takes one all the same. And a result of another
kind is returned as it is, where a fixed value or a field would have been refused.

Both are decided by the kinds on the stack before the invocation and before the return, so the stack
is followed here whatever its height (`Code.ReturnsExactly`), and not in the frame of the code. The
local variables are those of the method, which has to fit a frame for that.

## Main definitions

* `Method.stackAfter?` — the stack after code that stays in the method
* `Code.ReturnsExactly` — the code comes to its return with what it returns and nothing else

## Main results

* `Target.superCall?_special` — what a super call invokes
* `Target.super_calls_return_exactly` — which super calls come to their return
-/

namespace ClassForge

/-! ### Stacks of any height -/

namespace Method

/-- The stack after instructions that stay in the method, if all of them can run. How high it gets
does not matter here. -/
def stackAfter? (m : Method) (stack : List ValueKind) : List Instruction → Option (List ValueKind)
  | [] => some stack
  | i :: is => do
    let (takes, leaves) ← (m.checker 0).exchange? stack i
    let rest ← stack.dropPrefix? takes
    m.stackAfter? (leaves ++ rest) is

theorem stackAfter?_append (m : Method) (stack : List ValueKind) (is js : List Instruction) :
    m.stackAfter? stack (is ++ js) = (m.stackAfter? stack is).bind (m.stackAfter? · js) := by
  induction is generalizing stack with
  | nil => rfl
  | cons i is ih => simp only [List.cons_append, stackAfter?, ih, Option.bind_eq_bind,
      Option.bind_assoc]

end Method

/-- The code comes to its return, which is that of the method, with the value to return on the stack
and nothing else, or with nothing at all if there is no value. -/
def Code.ReturnsExactly (m : Method) (code : Code) : Prop :=
  ∃ body, code.instructions = body ++ [.ret (ValueKind.of m.returnType)] ∧
    m.stackAfter? [] body = some (ValueKind.of m.returnType).toList

namespace Method

open Fragment

variable {m c : Method} {kinds : List ValueKind} {s : List ValueKind}

/-- Parameters in order, from some index on, are pushed in order. -/
theorem stackAfter?_loadFrom (hbounds : ∀ t ∈ m.parameterTypes, t.HasReferenceBound)
    (hslots : ∀ t ∈ m.parameterTypes, 0 < t.slots) {ts : List TypeRef} {i : Nat}
    (hts : m.parameterTypes.drop i = ts) (hkinds : ts.map ValueKind.of = kinds.map some)
    (s : List ValueKind) :
    m.stackAfter? s ((loadFrom (m.parameterOffset i) ts).flatMap instructions) =
      some (kinds.reverse ++ s) := by
  induction ts generalizing i kinds s with
  | nil =>
    obtain rfl := List.map_eq_nil_iff.1 hkinds.symm
    rfl
  | cons t ts ih =>
    obtain ⟨kind, rest, rfl, hkind, hrest⟩ := List.map_eq_cons_iff.1 hkinds.symm
    have ht : m.parameterTypes[i]? = some t := by
      rw [← List.head?_drop, hts]
      rfl
    have htail : m.parameterTypes.drop (i + 1) = ts := by
      rw [← List.tail_drop, hts]
      rfl
    have hvariable := localKind?_parameterOffset hslots ht (hbounds t (List.mem_of_getElem? ht))
      hkind.symm
    have hload : (m.checker 0).exchange? s (.load kind (m.parameterOffset i)) =
        some ([], [kind]) := if_pos hvariable
    have hinstructions : (load t (m.parameterOffset i)).instructions =
        [.load kind (m.parameterOffset i)] := by
      rw [load, ← hkind, instructions]
    rw [loadFrom, List.flatMap_cons, hinstructions, List.singleton_append, stackAfter?, hload,
      ← parameterOffset_succ ht]
    simp [ih htail hrest.symm]

/-- What a method loads for a call, top first: its parameters, over the receiver if it has one. -/
theorem stackAfter?_loadArguments (hm : m.HasReferenceBounds)
    (hkinds : m.parameterTypes.map ValueKind.of = kinds.map some) :
    m.stackAfter? [] (loadArguments m (!m.isStatic)).instructions =
      some (kinds.reverse ++ if m.isStatic then [] else [.reference]) := by
  have hslots (t : TypeRef) (ht : t ∈ m.parameterTypes) : 0 < t.slots := by
    have hmem : ValueKind.of t ∈ kinds.map some := hkinds ▸ List.mem_map_of_mem ht
    obtain ⟨kind, -, hkind⟩ := List.mem_map.1 hmem
    exact TypeRef.slots_pos hkind.symm
  have hparameters := fun s => stackAfter?_loadFrom hm.parameterTypes hslots
    (List.drop_zero (l := m.parameterTypes)) hkinds s
  rw [show m.parameterOffset 0 = m.receiverSlots by simp [parameterOffset, TypeRef.totalSlots]]
    at hparameters
  rw [loadArguments, instructions_join, List.flatMap_append, stackAfter?_append]
  cases hstatic : m.isStatic with
  | true => simpa [stackAfter?] using hparameters []
  | false =>
    have hreceiver : (m.checker 0).exchange? [] (.load .reference 0) = some ([], [.reference]) := by
      refine if_pos ⟨?_, ?_⟩
      · simp [checker, localKind?, localType?, hstatic, ValueKind.of, ValueKind.ofErased]
      · simp [checker, frameSize, receiverSlots, hstatic, ValueKind.slots]
    simpa [stackAfter?, loadThis, instructions, hreceiver] using hparameters [.reference]

/-- Parameters can be loaded if all of them have values. -/
theorem isLegal_loadFrom_iff {slot : Nat} {ts : List TypeRef} :
    (loadFrom slot ts).all isLegal = true ↔
      ∃ kinds : List ValueKind, ts.map ValueKind.of = kinds.map some := by
  induction ts generalizing slot with
  | nil => exact ⟨fun _ => ⟨[], rfl⟩, fun _ => rfl⟩
  | cons t ts ih =>
    rw [loadFrom, List.all_cons, Bool.and_eq_true, ih]
    constructor
    · rintro ⟨hload, kinds, hkinds⟩
      obtain ⟨kind, hkind, -⟩ := pushes_load hload
      exact ⟨kind :: kinds, by simp [hkind, hkinds]⟩
    · rintro ⟨kinds, hkinds⟩
      obtain ⟨kind, rest, rfl, hkind, hrest⟩ := List.map_eq_cons_iff.1 hkinds.symm
      refine ⟨?_, rest, hrest.symm⟩
      rw [load, ← hkind]
      rfl

theorem isLegal_loadArguments_iff {withThis : Bool} :
    (loadArguments m withThis).isLegal = true ↔
      ∃ kinds : List ValueKind, m.parameterTypes.map ValueKind.of = kinds.map some := by
  have hreceiver : (if withThis then [loadThis] else []).all isLegal = true := by
    cases withThis <;> rfl
  rw [loadArguments, isLegal_join, List.all_append, hreceiver, Bool.true_and, isLegal_loadFrom_iff]

/-- **A call comes out exactly if it takes what was loaded.** Of a call that is made with all
parameters, the stack is left with what it returns exactly if there is a receiver and arguments are
of the kinds of the parameters. -/
theorem stackAfter?_call (hm : m.HasReferenceBounds)
    (hkinds : m.parameterTypes.map ValueKind.of = kinds.map some)
    (hlength : c.erasedParameterTypes.length = m.erasedParameterTypes.length) (owner : String)
    {result : List ValueKind} :
    m.stackAfter? [] ((loadArguments m (!m.isStatic)).instructions ++
        [.invoke .special ⟨owner, c.name, c.type⟩]) = some result ↔
      m.isStatic = false ∧
        c.erasedParameterTypes.map ValueKind.ofErased = m.parameterTypes.map ValueKind.of ∧
        (ValueKind.of c.returnType).toList = result := by
  rw [stackAfter?_append, stackAfter?_loadArguments hm hkinds, Option.bind_some]
  simp only [stackAfter?, Checker.exchange?, Option.bind_eq_bind, Option.bind_eq_some_iff,
    mapM_eq_some_iff, reduceCtorEq, if_false, Option.some.injEq,
    List.dropPrefix?_eq_some_iff, beq_iff_eq, hkinds]
  constructor
  · rintro ⟨_, ⟨arguments, harguments, rfl⟩, rest, ⟨_, hstack, rfl⟩, rfl⟩
    rw [List.append_assoc] at hstack
    have hcount : kinds.reverse.length = arguments.reverse.length := by
      have hc := congrArg List.length harguments
      have hm := congrArg List.length hkinds
      simp only [Method.type, Method.erasedParameterTypes, MethodToken.parameterTypes,
        List.length_map, List.length_reverse] at hc hm hlength ⊢
      omega
    obtain ⟨hreversed, hreceiver⟩ := List.append_inj hstack hcount
    obtain rfl := List.reverse_injective hreversed
    cases hstatic : m.isStatic with
    | true => simp [hstatic] at hreceiver
    | false =>
      obtain rfl : rest = [] := by simpa [hstatic] using hreceiver
      exact ⟨rfl, harguments, by simp [Method.type, ValueKind.of]⟩
  · rintro ⟨hstatic, harguments, rfl⟩
    exact ⟨_, ⟨kinds, harguments, rfl⟩, [], ⟨_, by simp [hstatic], rfl⟩,
      by simp [Method.type, ValueKind.of]⟩

end Method

/-! ### What is called -/

namespace Target

variable {t : Target} {s : Signature} {call : SuperCall}

/-- **What a super call invokes**, if no code was moved aside: a constructor of the superclass that
takes the same erased types and can be seen, or the representative of a family of the superclass. -/
theorem superCall?_special (hmoved : t.moved = .empty) (h : t.superCall? s = some call) :
    ∃ c owner, call = ⟨c, owner, .special, .empty⟩ ∧ t.superName? = some owner ∧
      c.isAbstract = false ∧
      (s.name = constructorName ∧ c.isConstructor = true ∧
          c.erasedParameterTypes = s.parameterTypes ∧ c.isVisibleTo t.type t.pool = true ∧
          (∃ u, t.pool.find? owner = some u ∧ c ∈ u.methods) ∨
        s.name ≠ constructorName ∧
          ∃ node, t.superGraph.locate? s = some node ∧ node.representative = c) := by
  have hspecial {m : Method} {owner : String} (h : SuperCall.special? m owner = some call) :
      m.isAbstract = false ∧ call = ⟨m, owner, .special, .empty⟩ := by
    unfold SuperCall.special? at h
    split at h
    · cases h
    · exact ⟨Bool.eq_false_of_not_eq_true ‹_›, (Option.some.inj h).symm⟩
  rw [superCall?, hmoved, OrderedMap.get?_empty] at h
  dsimp only at h
  split at h
  · rename_i hname
    obtain ⟨owner, howner, h⟩ := Option.bind_eq_some_iff.1 h
    obtain ⟨u, hu, h⟩ := Option.bind_eq_some_iff.1 h
    obtain ⟨c, hc, h⟩ := Option.bind_eq_some_iff.1 h
    obtain ⟨habstract, hcall⟩ := hspecial h
    have hfound := List.find?_some hc
    simp only [Bool.and_eq_true, decide_eq_true_eq] at hfound
    exact ⟨c, owner, hcall, howner, habstract, .inl ⟨hname, hfound.1.1, hfound.1.2, hfound.2, u, hu,
      List.mem_of_find?_eq_some hc⟩⟩
  · rename_i hname
    obtain ⟨owner, howner, h⟩ := Option.bind_eq_some_iff.1 h
    obtain ⟨node, hnode, h⟩ := Option.bind_eq_some_iff.1 h
    split at h
    · obtain ⟨habstract, hcall⟩ := hspecial h
      exact ⟨_, owner, hcall, howner, habstract, .inr ⟨hname, node, hnode, rfl⟩⟩
    · cases h

end Target

namespace Appender

variable {t : Target} {m : Method} {code : Code}

/-- Which code a super call becomes, if it becomes any. -/
theorem apply_callSuper_eq_ok_iff :
    (Appender.implementation .callSuper t).apply m = .ok code ↔
      ∃ call, t.superCall? m.signature = some call ∧
        (Fragment.loadArguments m (!m.isStatic)).isLegal = true ∧ call.additional.isLegal = true ∧
        code = .of (.join [.loadArguments m (!m.isStatic), call.fragment, .ret m.returnType])
          m.frameSize := by
  rw [Appender.apply, Implementation.fragment, Implementation.superFragment]
  cases t.superCall? m.signature with
  | none => simp [bind, Except.bind]
  | some call =>
    have hlegal : (Fragment.join
        [.loadArguments m (!m.isStatic), call.fragment, .ret m.returnType]).isLegal =
        ((Fragment.loadArguments m (!m.isStatic)).isLegal && call.additional.isLegal) := by
      simp [SuperCall.fragment, Fragment.invokeOn, Fragment.ret, Fragment.isLegal]
    change codeOf m _ = .ok code ↔ _
    simp only [codeOf, finish, if_true, hlegal, Bool.and_eq_true, Option.some.injEq,
      exists_eq_left']
    split
    · rename_i h
      simp only [h, true_and, Except.ok.injEq]
      exact eq_comm
    · rename_i h
      simp only [reduceCtorEq, false_iff]
      rintro ⟨hload, hadditional, -⟩
      exact h ⟨hload, hadditional⟩

/-- **The instructions of a super call**, whatever it invokes. -/
theorem exists_code_of_superCall {call : SuperCall} (hcall : t.superCall? m.signature = some call)
    (hload : (Fragment.loadArguments m (!m.isStatic)).isLegal = true)
    (hadditional : call.additional.isLegal = true) :
    ∃ code, (Appender.implementation .callSuper t).apply m = .ok code ∧
      code.instructions =
        (Fragment.loadArguments m (!m.isStatic)).instructions ++ call.additional.instructions ++
          [.invoke call.dispatch ⟨call.owner, call.method.name, call.method.type⟩,
            .ret (ValueKind.of m.returnType)] := by
  refine ⟨_, apply_callSuper_eq_ok_iff.2 ⟨call, hcall, hload, hadditional, rfl⟩, ?_⟩
  simp [Code.of, SuperCall.fragment, Fragment.invokeOn, Fragment.ret, Fragment.instructions]

/-- The instructions of a super call, if no code was moved aside. -/
theorem instructions_of_callSuper (hmoved : t.moved = .empty)
    (h : (Appender.implementation .callSuper t).apply m = .ok code) :
    ∃ c owner, t.superCall? m.signature = some ⟨c, owner, .special, .empty⟩ ∧
      (∃ kinds : List ValueKind, m.parameterTypes.map ValueKind.of = kinds.map some) ∧
      code.instructions = (Fragment.loadArguments m (!m.isStatic)).instructions ++
        [.invoke .special ⟨owner, c.name, c.type⟩, .ret (ValueKind.of m.returnType)] := by
  obtain ⟨call, hcall, hload, hadditional, -⟩ := apply_callSuper_eq_ok_iff.1 h
  obtain ⟨code', h', hinstructions⟩ := exists_code_of_superCall hcall hload hadditional
  obtain rfl := Except.ok.inj (h.symm.trans h')
  obtain ⟨c, owner, rfl, -⟩ := Target.superCall?_special hmoved hcall
  refine ⟨c, owner, hcall, Method.isLegal_loadArguments_iff.1 hload, ?_⟩
  have hempty : Fragment.empty.instructions = [] := by simp [Fragment.instructions]
  rwa [hempty, List.append_nil] at hinstructions

/-- A super call loads no other local variables than those that its method is called with. -/
theorem fitsWidths_of_callSuper (hmoved : t.moved = .empty) (hm : m.FitsFrame)
    (h : (Appender.implementation .callSuper t).apply m = .ok code) : code.FitsWidths := by
  obtain ⟨c, owner, -, -, hcode⟩ := instructions_of_callSuper hmoved h
  exact (fitsFrame_of_apply hm h).fitsWidths hm _ hcode (by simp [Instruction.slot?])

end Appender

/-- Code that ends in the return of the method returns exactly what the rest leaves on the stack. -/
theorem Code.returnsExactly_iff {m : Method} {code : Code} (body : List Instruction)
    (h : code.instructions = body ++ [.ret (ValueKind.of m.returnType)]) :
    code.ReturnsExactly m ↔ m.stackAfter? [] body = some (ValueKind.of m.returnType).toList := by
  constructor
  · rintro ⟨body', hbody', hstack⟩
    obtain rfl := List.append_cancel_right (h.symm.trans hbody')
    exact hstack
  · exact fun hstack => ⟨body, h, hstack⟩

namespace Target

/-- The target for a type with the families of its hierarchy. -/
def ofHierarchy (p : Pool) (t : TypeDecl) : Target :=
  .make t (GraphScope.hierarchy.compile p t) p

/-- **Which super calls come to their return.** The code of a super call loads the parameters, over
the receiver if the method has one, invokes a method of the superclass, and returns. If all that the
method is called with fits a frame, the code has the widths of a class file. It comes to the return
with exactly what is returned if and only if the method is not static, the invoked method takes
arguments of the kinds of the parameters, and it returns a value of the kind that the method
returns. The arguments agree for all constructors, and for all methods if type arguments stand for
references; the results agree for constructors. -/
theorem super_calls_return_exactly {p : Pool} {t : TypeDecl} {m : Method} {code : Code}
    (hbounds : ∀ u ∈ t :: p.types, ∀ m ∈ u.methods, m.HasReferenceBounds)
    (hconstructors : ∀ u ∈ t :: p.types, ∀ c ∈ u.methods, c.isConstructor = true →
      c.returnType = .void)
    (hm : m ∈ t.methods) (hframe : m.FitsFrame)
    (h : (Appender.implementation .callSuper (ofHierarchy p t)).apply m = .ok code) :
    code.FitsWidths ∧ ∃ c owner, ∃ kinds : List ValueKind,
      (ofHierarchy p t).superCall? m.signature = some ⟨c, owner, .special, .empty⟩ ∧
      code.instructions = (Fragment.loadArguments m (!m.isStatic)).instructions ++
        [.invoke .special ⟨owner, c.name, c.type⟩, .ret (ValueKind.of m.returnType)] ∧
      m.parameterTypes.map ValueKind.of = kinds.map some ∧
      m.stackAfter? [] (Fragment.loadArguments m (!m.isStatic)).instructions =
        some (kinds.reverse ++ if m.isStatic then [] else [.reference]) ∧
      (code.ReturnsExactly m ↔ m.isStatic = false ∧
        c.erasedParameterTypes.map ValueKind.ofErased = kinds.map some ∧
        ValueKind.of c.returnType = ValueKind.of m.returnType) ∧
      (m.isConstructor = true ∨ (∀ u ∈ t :: p.types, ∀ r ∈ u.supertypes, r.IsClassType) →
        c.erasedParameterTypes.map ValueKind.ofErased = kinds.map some) ∧
      (m.isConstructor = true → ValueKind.of c.returnType = ValueKind.of m.returnType) := by
  obtain ⟨c, owner, hcall, ⟨kinds, hkinds⟩, hcode⟩ := Appender.instructions_of_callSuper rfl h
  obtain ⟨_, _, heq, -, -, hfound⟩ := superCall?_special rfl hcall
  cases heq
  have hmbounds := hbounds t List.mem_cons_self m hm
  have hparameters : m.erasedParameterTypes.map ValueKind.ofErased = kinds.map some :=
    m.kinds_erasedParameterTypes.trans hkinds
  have hlength : c.erasedParameterTypes.length = m.erasedParameterTypes.length := by
    rcases hfound with ⟨-, -, herased, -⟩ | ⟨-, node, hnode, rfl⟩
    · exact congrArg List.length herased
    · exact GraphScope.length_of_locate hnode
  refine ⟨Appender.fitsWidths_of_callSuper rfl hframe h, c, owner, kinds, hcall, hcode, hkinds,
    Method.stackAfter?_loadArguments hmbounds hkinds, ?_, fun hsame => ?_, fun hconstructor => ?_⟩
  · have hresult : (ValueKind.of c.returnType).toList = (ValueKind.of m.returnType).toList ↔
        ValueKind.of c.returnType = ValueKind.of m.returnType := by
      cases ValueKind.of c.returnType <;> cases ValueKind.of m.returnType <;> simp
    rw [Code.returnsExactly_iff (_ ++ [_]) (by simpa using hcode),
      Method.stackAfter?_call hmbounds hkinds hlength, hkinds, hresult]
  · rcases hfound with ⟨-, -, herased, -⟩ | ⟨hname, node, hnode, rfl⟩
    · rw [herased]
      exact hparameters
    · have hclass := hsame.resolve_left fun hconstructor => hname (of_decide_eq_true hconstructor)
      exact (GraphScope.kinds_of_locate (fun u hu => hbounds u (List.mem_cons_of_mem _ hu)) hclass
        hnode).trans hparameters
  · rcases hfound with ⟨-, hc, -, -, u, hu, hmem⟩ | ⟨hname, -⟩
    · rw [hconstructors t List.mem_cons_self m hm hconstructor,
        hconstructors u (List.mem_cons_of_mem _ (Pool.mem_of_find? hu)) c hmem hc]
    · exact absurd (of_decide_eq_true hconstructor) hname

/-- A class overrides a method of a generic superclass and calls it: the call finds the method by
its erased parameters as the class sees them, and invokes it by those that the superclass
declares. -/
theorem super_calls_return_exactly_generic :
    let boxPut : Method :=
      { owner := "a.Box", name := "put", modifiers := .of [.accPublic]
        returnType := .primitive .long
        parameters := [{ type := .typeVar "T" .object }, { type := .primitive .int }] }
    let p := Pool.empty.register
      { name := "a.Box", modifiers := .of [.accPublic], typeVariables := [{ symbol := "T" }]
        methods := [boxPut] }
    let put : Method :=
      { owner := "a.Sub", name := "put", modifiers := .of [.accPublic]
        returnType := .primitive .long
        parameters := [{ type := .named "java.lang.String" }, { type := .primitive .int }] }
    let t : TypeDecl :=
      { name := "a.Sub", modifiers := .of [.accPublic]
        superclass := some (.parameterized "a.Box" [.named "java.lang.String"]), methods := [put] }
    ∃ code, (Appender.implementation .callSuper (ofHierarchy p t)).apply put = .ok code ∧
      code.instructions = [.load .reference 0, .load .reference 1, .load .int 2,
        .invoke .special ⟨"a.Box", "put", .primitive .long, [.object, .primitive .int]⟩,
        .ret (some .long)] ∧
      code.FitsWidths ∧ code.ReturnsExactly put := by
  intro boxPut p put t
  have facts : ((Appender.implementation .callSuper (ofHierarchy p t)).apply put).toOption.any
      (fun code => decide (code.instructions =
        [.load .reference 0, .load .reference 1, .load .int 2,
          .invoke .special ⟨"a.Box", "put", .primitive .long, [.object, .primitive .int]⟩,
          .ret (some .long)])) = true := by
    decide +kernel
  have callee : ((ofHierarchy p t).superCall? put.signature).map (·.method) = some boxPut := by
    decide +kernel
  obtain ⟨code, h, hcode⟩ := exists_ok_of_any facts
  obtain ⟨hwidths, c, owner, kinds, hcall, -, -, -, hexact, harguments, -⟩ :=
    super_calls_return_exactly (by decide) (by decide) (List.mem_singleton_self put) (by decide) h
  obtain rfl : c = boxPut := by simpa [hcall] using callee
  exact ⟨code, h, of_decide_eq_true hcode, hwidths,
    hexact.2 ⟨by decide, harguments (.inr (by decide)), by decide⟩⟩

/-- A static method may call a method of the superclass that is none: no receiver is loaded for it.
And a method may call one that returns a value of another kind, which it then returns as it is. -/
theorem super_calls_miss_receivers_and_results :
    let declare (owner name : String) (flags : List Flag) (kind : Primitive) : Method :=
      { owner, name, modifiers := .of flags, returnType := .primitive kind }
    let p := Pool.empty.register
      { name := "a.Base", modifiers := .of [.accPublic]
        methods := [declare "a.Base" "size" [.accPublic] .int,
          declare "a.Base" "total" [.accPublic] .int] }
    let size := declare "a.Sub" "size" [.accPublic, .accStatic] .int
    let total := declare "a.Sub" "total" [.accPublic] .long
    let t : TypeDecl :=
      { name := "a.Sub", modifiers := .of [.accPublic], superclass := some (.named "a.Base")
        methods := [size, total] }
    (∃ code, (Appender.implementation .callSuper (ofHierarchy p t)).apply size = .ok code ∧
      code.instructions =
        [.invoke .special ⟨"a.Base", "size", .primitive .int, []⟩, .ret (some .int)] ∧
      ¬ code.ReturnsExactly size ∧ ¬ code.Verifies size) ∧
    ∃ code, (Appender.implementation .callSuper (ofHierarchy p t)).apply total = .ok code ∧
      code.instructions = [.load .reference 0,
        .invoke .special ⟨"a.Base", "total", .primitive .int, []⟩, .ret (some .long)] ∧
      ¬ code.ReturnsExactly total ∧ ¬ code.Verifies total := by
  intro declare p size total t
  have unreceived : ((Appender.implementation .callSuper (ofHierarchy p t)).apply size).toOption.any
      (fun code => decide (code.instructions =
        [.invoke .special ⟨"a.Base", "size", .primitive .int, []⟩, .ret (some .int)] ∧
          ¬ code.Verifies size)) = true := by
    decide +kernel
  have unconverted : ((Appender.implementation .callSuper
      (ofHierarchy p t)).apply total).toOption.any
      (fun code => decide (code.instructions = [.load .reference 0,
        .invoke .special ⟨"a.Base", "total", .primitive .int, []⟩, .ret (some .long)] ∧
          ¬ code.Verifies total)) = true := by
    decide +kernel
  refine ⟨?_, ?_⟩
  · obtain ⟨code, h, hcode⟩ := exists_ok_of_any unreceived
    obtain ⟨hcode, hverifies⟩ := of_decide_eq_true hcode
    exact ⟨code, h, hcode, fun hexact => by
      have hstack := (Code.returnsExactly_iff [_] hcode).1 hexact
      revert hstack
      decide, hverifies⟩
  · obtain ⟨code, h, hcode⟩ := exists_ok_of_any unconverted
    obtain ⟨hcode, hverifies⟩ := of_decide_eq_true hcode
    exact ⟨code, h, hcode, fun hexact => by
      have hstack := (Code.returnsExactly_iff [_, _] hcode).1 hexact
      revert hstack
      decide, hverifies⟩

end Target

end ClassForge
