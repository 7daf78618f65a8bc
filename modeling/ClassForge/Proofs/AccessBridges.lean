import ClassForge.Proofs.FamilyRecords
import ClassForge.Proofs.FrameWidths

/-!
# What access bridges do

An access bridge answers one signature of a family by calling the method that answers another. The
two may differ in any reference type, in either direction: an erased signature forwards to an
override that is more specific, and an instantiated one to a generic method that was overridden as
it was declared. So what the bridge is given may have to be cast for the method, and what the method
returns may have to be cast for the bridge.

The first is seen to. Each argument comes from the parameter of the bridge at its position, whatever
slots the parameters before it take, and it is cast unless it is primitive, in which case both types
are the same. The second is not: the bridge returns what comes back as it is. A bridge is therefore
well typed exactly if the result of its method may be used as its own (`AccessBridges.Fits`), and
bridges from an instantiated signature to a generic method that returns a variable are not.

All this is about bridges whose parameters fit a frame. A slot of the code is then a slot of a class
file.

## Main definitions

* `AccessBridges.arguments` — what a bridge hands over
* `AccessBridges.Fits` — the method can stand in for the bridge
* `AccessBridges.Answers` — what is written as a bridge does what bridges are for

## Main results

* `AccessBridges.run_forward` — what the code of a bridge does
* `AccessBridges.wellTyped_iff` — when it is well typed
* `Registry.access_bridges_forward` — both, for all bridges that a registry writes
* `Registry.access_bridges_return_any_object` — a bridge that is not well typed
-/

namespace ClassForge

/-! ### Types that pass -/

/-- What an erased reference can be. -/
theorem TypeRef.erasure_cases : (t : TypeRef) → t.erasure = void ∨ (∃ p, t.erasure = primitive p) ∨
    (∃ n, t.erasure = named n) ∨ (∃ c, t.erasure = array c) ∨ t.erasure = target
  | void | primitive _ | named _ | parameterized _ _ | target | array _ => by simp
  | typeVar _ b => erasure_cases b

namespace Method

variable {a b : TypeRef}

/-- What is no reference passes unchanged. -/
theorem eq_of_passes (h : passes a b = true) (ha : (a.isPrimitive || a.isVoid) = true) : a = b := by
  simpa [passes, ha] using h

theorem isReference_of_passes (h : passes a b = true) (ha : (a.isPrimitive || a.isVoid) = false) :
    (b.isPrimitive || b.isVoid) = false := by
  rw [passes, Bool.or_eq_true, decide_eq_true_eq] at h
  rcases h with rfl | h
  · exact ha
  · rw [ha, Bool.not_false, Bool.true_and, Bool.not_eq_true'] at h
    exact h

theorem void_iff_of_passes (h : passes a b = true) : a = .void ↔ b = .void := by
  rw [passes, Bool.or_eq_true, decide_eq_true_eq] at h
  rcases h with rfl | h
  · exact Iff.rfl
  · constructor
    · rintro rfl
      cases h
    · rintro rfl
      rw [Bool.and_eq_true] at h
      cases h.2

end Method

/-- Casting a value of a type that passes gives the type that it is cast to. Nothing is cast to the
placeholder for a declaring type. -/
theorem Operand.type?_castTo {m : Method} {v : Operand} {s t : TypeRef}
    (hv : v.type? m = some s) (hpass : Method.passes t.erasure s = true)
    (ht : t.erasure ≠ .void) :
    (v.castTo t).type? m = some (if t.erasure = .target then s else t.erasure) := by
  have hcast (u : TypeRef) (hs : (s.isPrimitive || s.isVoid) = false) :
      (Operand.cast u v).type? m = some u := by
    rw [type?, hv, Option.bind_some, hs, if_neg Bool.false_ne_true]
  unfold castTo
  rcases t.erasure_cases with e | ⟨p, e⟩ | ⟨n, e⟩ | ⟨c, e⟩ | e
  · exact absurd e ht
  · rw [e] at hpass ⊢
    obtain rfl := Method.eq_of_passes hpass rfl
    rw [if_neg nofun]
    exact hv
  · rw [e] at hpass ⊢
    rw [if_neg nofun]
    exact hcast _ (Method.isReference_of_passes hpass rfl)
  · rw [e] at hpass ⊢
    rw [if_neg nofun]
    exact hcast _ (Method.isReference_of_passes hpass rfl)
  · rw [e, if_pos rfl]
    exact hv

theorem Operand.slot?_castTo (v : Operand) (t : TypeRef) : (v.castTo t).slot? = v.slot? := by
  unfold castTo
  split <;> rfl

/-- The bridge has as many parameters as the method, and types that pass at each position. -/
structure Method.Forwards (bridge target : Method) : Prop where
  length : bridge.parameters.length = target.parameters.length
  parameters : ∀ (i : Nat) (hi : i < bridge.parameters.length) (hi' : i < target.parameters.length),
    passes target.parameters[i].type.erasure bridge.parameters[i].type.erasure = true
  returnType : passes target.returnType.erasure bridge.returnType.erasure = true

namespace AccessBridges

variable {b : AccessBridges} {flags : Modifiers} {t : MethodType} {bridge : Method}

theorem forwards_bridge (ht : t.erasure = t) (hb : b.target.canBridge t = true) :
    (b.bridge flags t).Forwards b.target := by
  simp only [Method.canBridge, Bool.and_eq_true, decide_eq_true_eq] at hb
  obtain ⟨⟨hlength, hparameters⟩, hreturn⟩ := hb
  have herased : t.parameterTypes.map TypeRef.erasure = t.parameterTypes :=
    congrArg MethodType.parameterTypes ht
  have hreturnType : t.returnType.erasure = t.returnType := congrArg MethodType.returnType ht
  refine ⟨by simp [bridge, hlength], ?_, ?_⟩
  · intro i hi hi'
    have hi'' : i < t.parameterTypes.length := by simpa [bridge] using hi
    have hpass := List.all_eq_true.1 hparameters (Method.passes
      b.target.parameters[i].type.erasure t.parameterTypes[i]) (by
        refine List.mem_iff_getElem.2 ⟨i, ?_, ?_⟩
        · simp [Method.erasedParameterTypes, hi', hi'']
        · simp [Method.erasedParameterTypes])
    have hget : (t.parameterTypes.map TypeRef.erasure)[i]? = t.parameterTypes[i]? := by
      rw [herased]
    have htype : t.parameterTypes[i].erasure = t.parameterTypes[i] := by
      simpa [hi''] using hget
    simpa [bridge, htype] using hpass
  · rw [bridge, hreturnType]
    exact hreturn

/-- The method as the bridges call it. -/
def callee (b : AccessBridges) : MethodRef := ⟨b.owner, b.target.name, b.target.type⟩

/-- What a bridge hands over: its parameters, cast where the method asks for it. -/
def arguments (b : AccessBridges) (bridge : Method) : List Operand :=
  (bridge.parameters.zip b.target.parameters).mapIdx fun i x =>
    (Operand.loaded ((ValueKind.of x.1.type).getD .reference) (bridge.parameterOffset i)).castTo
      x.2.type

theorem legal_of_forward (h : (b.forward bridge).isLegal = true) {i : Nat}
    (hi : i < bridge.parameters.length) (hi' : i < b.target.parameters.length) :
    (Fragment.load bridge.parameters[i].type (bridge.parameterOffset i)).isLegal = true ∧
      (Fragment.cast b.target.parameters[i].type).isLegal = true := by
  rw [forward, Fragment.isLegal_join, List.all_eq_true] at h
  have hpart := h (.join [.load bridge.parameters[i].type (bridge.parameterOffset i),
    .cast b.target.parameters[i].type]) (by
      refine List.mem_cons_of_mem _ (List.mem_append_left _ (List.mem_mapIdx.2 ⟨i, ?_, ?_⟩))
      · simp [hi, hi']
      · simp)
  simpa using hpart

/-- The values that the code for the arguments pushes. -/
theorem pushes_arguments (h : (b.forward bridge).isLegal = true) :
    List.Forall₂ Fragment.Pushes
      ((bridge.parameters.zip b.target.parameters).mapIdx fun i p =>
        .join [.load p.1.type (bridge.parameterOffset i), .cast p.2.type])
      (b.arguments bridge) := by
  rw [arguments, List.forall₂_iff_get]
  refine ⟨by simp, ?_⟩
  intro i hi hi'
  have hi : i < bridge.parameters.length ∧ i < b.target.parameters.length := by
    simpa using hi
  obtain ⟨kind, hkind, hload⟩ := Fragment.pushes_load (legal_of_forward h hi.1 hi.2).1
  simpa [hkind] using hload.cast b.target.parameters[i].type

/-- **What a bridge does:** it calls the method with its arguments, and returns what comes back. -/
theorem run_forward (h : (b.forward bridge).isLegal = true) (hb : bridge.Forwards b.target)
    (hdispatch : b.dispatch ≠ .static) :
    Frame.run {} (b.forward bridge).instructions =
      some ⟨[⟨b.callee, .loaded .reference 0 :: b.arguments bridge⟩],
        if b.target.returnType.erasure = .void then none else some (.result b.callee)⟩ := by
  have hlength : (b.arguments bridge).length = b.callee.type.parameterTypes.length := by
    simp [arguments, callee, Method.type, Method.erasedParameterTypes, hb.length]
  have hcall : Frame.step? ⟨(b.arguments bridge).reverse ++ [.loaded .reference 0], []⟩
      (.invoke b.dispatch b.callee) =
        some ⟨if b.target.returnType.erasure = .void then [] else [.result b.callee],
          [⟨b.callee, .loaded .reference 0 :: b.arguments bridge⟩]⟩ :=
    Frame.step?_invoke hdispatch hlength
  have hend : [Fragment.invokeOn b.target b.owner b.dispatch,
      .ret bridge.returnType].flatMap Fragment.instructions =
        [.invoke b.dispatch b.callee, .ret (ValueKind.of bridge.returnType)] := rfl
  rw [forward, Fragment.instructions_join, List.cons_append, List.flatMap_cons,
    List.flatMap_append, Fragment.pushes_loadThis, Frame.run_flatMap (pushes_arguments h), hend,
    Frame.run_invoke]
  change (Frame.step? ⟨(b.arguments bridge).reverse ++ [.loaded .reference 0], []⟩
    (.invoke b.dispatch b.callee)).bind _ = _
  rw [hcall, Option.bind_some]
  -- Both methods return something, or neither of them does.
  have hvoid := ValueKind.of_eq_none_iff.trans (Method.void_iff_of_passes hb.returnType).symm
  cases hkind : ValueKind.of bridge.returnType with
  | none =>
    rw [if_pos (hvoid.1 hkind), if_pos (hvoid.1 hkind)]
    rfl
  | some kind =>
    have hsome : b.target.returnType.erasure ≠ .void := by
      intro hnone
      rw [hvoid.2 hnone] at hkind
      cases hkind
    rw [if_neg hsome, if_neg hsome]
    rfl

/-! ### Where arguments come from, and of which types they are -/

theorem slots_arguments (hb : bridge.Forwards b.target) :
    (b.arguments bridge).map (·.slot?) =
      (List.range b.target.parameters.length).map fun i => some (bridge.parameterOffset i) := by
  refine List.ext_getElem (by simp [arguments, hb.length]) ?_
  intro i hi hi'
  simp [arguments, Operand.slot?_castTo, Operand.slot?]

/-- The type that an argument is handed over as, if the parameter of the bridge has the type `s` and
that of the method the type `t`. -/
def handedAs (s t : TypeRef) : TypeRef := if t = .target then s else t

/-- Whatever can be loaded takes slots. -/
theorem slots_pos_of_forward (h : (b.forward bridge).isLegal = true)
    (hb : bridge.Forwards b.target) : ∀ t ∈ bridge.parameterTypes, 0 < t.slots := by
  intro t ht
  obtain ⟨x, hx, rfl⟩ := List.mem_map.1 ht
  obtain ⟨i, hi, rfl⟩ := List.mem_iff_getElem.1 hx
  obtain ⟨kind, hkind, -⟩ := Fragment.pushes_load (legal_of_forward h hi (hb.length ▸ hi)).1
  exact TypeRef.slots_pos hkind

theorem types_arguments (h : (b.forward bridge).isLegal = true) (hb : bridge.Forwards b.target) :
    (b.arguments bridge).map (·.type? bridge) =
      (List.zipWith handedAs bridge.erasedParameterTypes b.target.erasedParameterTypes).map
        some := by
  refine List.ext_getElem (by simp [arguments, Method.erasedParameterTypes]) ?_
  intro i hi hi'
  have hi : i < bridge.parameters.length ∧ i < b.target.parameters.length := by
    simpa [arguments] using hi
  obtain ⟨hload, hcast⟩ := legal_of_forward h hi.1 hi.2
  obtain ⟨kind, hkind, -⟩ := Fragment.pushes_load hload
  have htype : (Operand.loaded kind (bridge.parameterOffset i)).type? bridge =
      some bridge.parameters[i].type.erasure := by
    have hlocal := Method.localType?_parameterOffset (slots_pos_of_forward h hb) (i := i)
      (by simpa [MethodToken.parameterTypes] using hi.1)
    rw [Operand.type?, hlocal]
    simp [MethodToken.parameterTypes, hkind]
  have hnotVoid : b.target.parameters[i].type.erasure ≠ .void := by
    intro hvoid
    rw [Fragment.cast, hvoid] at hcast
    cases hcast
  have harg := Operand.type?_castTo htype (hb.parameters i hi.1 hi.2) hnotVoid
  simpa [arguments, hkind, handedAs, Method.erasedParameterTypes] using harg

/-- Arguments are of the types that the method asks for, a bare placeholder aside. -/
theorem zipWith_handedAs_eq_iff {ss ts : List TypeRef} (h : ss.length = ts.length) :
    List.zipWith handedAs ss ts = ts ↔ ∀ x ∈ ss.zip ts, x.2 = .target → x.1 = .target := by
  induction ss generalizing ts with
  | nil =>
    cases ts with
    | nil => simp
    | cons t ts => cases h
  | cons s ss ih =>
    cases ts with
    | nil => cases h
    | cons t ts =>
      have hhead : handedAs s t = t ↔ (t = .target → s = .target) := by
        unfold handedAs
        split
        · rename_i ht
          simp [ht]
        · rename_i ht
          simp [ht]
      rw [List.zipWith_cons_cons, List.cons.injEq, List.zip_cons_cons, List.forall_mem_cons, hhead,
        ih (Nat.succ.inj h)]

/-! ### Written bridges -/

@[simp] theorem assign?_erasure (p : Pool) (s w : TypeRef) :
    assign? p s.erasure w = assign? p s w := by
  simp [assign?]

/-- The method can stand in for a bridge of some erased types: its result may be used as that of the
bridge. It has the bare placeholder as a parameter only where the bridge has it too, since nothing
is cast to the placeholder. -/
structure Fits (p : Pool) (b : AccessBridges) (type : MethodType) : Prop where
  result : (assign? p b.target.returnType type.returnType).isSome = true
  parameters : ∀ x ∈ type.parameterTypes.zip b.target.erasedParameterTypes,
    x.2 = .target → x.1 = .target

/-- **The trace of a bridge** is well typed exactly if the method fits. -/
theorem wellTyped_iff (p : Pool) (h : (b.forward bridge).isLegal = true)
    (hb : bridge.Forwards b.target) :
    Trace.WellTyped p bridge ⟨[⟨b.callee, .loaded .reference 0 :: b.arguments bridge⟩],
        if b.target.returnType.erasure = .void then none else some (.result b.callee)⟩ ↔
      b.Fits p ⟨bridge.returnType, bridge.erasedParameterTypes⟩ := by
  have hlength : bridge.erasedParameterTypes.length = b.target.erasedParameterTypes.length := by
    simp [Method.erasedParameterTypes, hb.length]
  have hcall : (b.arguments bridge).map (·.type? bridge) = b.callee.type.parameterTypes.map some ↔
      ∀ x ∈ bridge.erasedParameterTypes.zip b.target.erasedParameterTypes,
        x.2 = .target → x.1 = .target := by
    rw [types_arguments h hb, ← zipWith_handedAs_eq_iff hlength]
    exact (List.map_injective_iff.2 fun _ _ => Option.some.inj).eq_iff
  have hvoid := Method.void_iff_of_passes hb.returnType
  have hresult : (∀ v ∈ if b.target.returnType.erasure = .void then none
      else some (Operand.result b.callee),
        (v.type? bridge).any (fun t => (assign? p t bridge.returnType).isSome) = true) ↔
      (assign? p b.target.returnType bridge.returnType).isSome = true := by
    by_cases hnone : b.target.returnType.erasure = .void
    · rw [if_pos hnone, ← assign?_erasure, hnone]
      simp [assign?, hvoid.1 hnone]
    · rw [if_neg hnone]
      simp [Operand.type?, callee, Method.type]
  constructor
  · intro htyped
    exact ⟨hresult.1 htyped.returned, hcall.1 (htyped.calls _ (List.mem_singleton_self _))⟩
  · intro hfits
    refine ⟨?_, hresult.2 hfits.result, ?_⟩
    · intro c hc
      obtain rfl := List.mem_singleton.1 hc
      exact hcall.2 hfits.parameters
    · rw [← hvoid]
      by_cases hnone : b.target.returnType.erasure = .void <;> simp [hnone]

/-- Bridges name slots of their own frame. -/
theorem le_of_mem_forward {i : Instruction} {n : Nat} (hi : i ∈ (b.forward bridge).instructions)
    (hn : n ∈ i.slot?) : n ≤ bridge.frameSize := by
  rw [forward, Fragment.instructions_join, List.mem_flatMap] at hi
  obtain ⟨f, hf, hi⟩ := hi
  simp only [List.cons_append, List.mem_cons, List.mem_append, List.mem_mapIdx,
    List.not_mem_nil, or_false] at hf
  rcases hf with rfl | ⟨index, hindex, rfl⟩ | rfl | rfl
  · obtain rfl := List.mem_singleton.1 hi
    exact Option.some.inj hn ▸ Nat.zero_le _
  · rw [Fragment.instructions_join, List.flatMap_cons, List.flatMap_singleton,
      List.mem_append] at hi
    rcases hi with hi | hi
    · exact Fragment.eq_of_mem_load hi hn ▸ bridge.parameterOffset_le_frameSize index
    · rw [Fragment.slot?_of_mem_cast hi] at hn
      cases hn
  · obtain rfl := List.mem_singleton.1 hi
    cases hn
  · obtain rfl := List.mem_singleton.1 hi
    cases hn

/-- The code of a written bridge is legal, and it has the widths of a class file if the bridge fits
a frame. -/
theorem code_of_write {w : WrittenMethod} (h : b.write flags t = .ok w) :
    w.modifiers = flags ∧ (b.forward (b.bridge flags t)).isLegal = true ∧
      w.trace? = Frame.run {} (b.forward (b.bridge flags t)).instructions ∧
      ((b.bridge flags t).FitsFrame → ∃ code, w.code = some code ∧ code.FitsWidths) := by
  obtain ⟨code, hcode, h⟩ := ok_of_bind h
  obtain rfl := Except.ok.inj h
  have hframe := Appender.frame_of_codeOf hcode
  unfold Appender.codeOf at hcode
  split at hcode
  · rename_i hlegal
    obtain rfl := Except.ok.inj hcode
    refine ⟨rfl, hlegal, rfl, fun hfits => ⟨_, rfl, ⟨hframe.1, hfits⟩, fun i hi n hn => ?_⟩⟩
    exact Nat.le_trans (le_of_mem_forward hi hn) hfits
  · cases hcode

/-- What is written is the bridge for the type, in code that has the widths of a class file. It
calls the method once, with its own parameters in their places, and it is well typed exactly if the
method fits. -/
structure Answers (p : Pool) (b : AccessBridges) (type : MethodType) (w : WrittenMethod) :
    Prop where
  writes : w.Writes (b.bridge w.modifiers type)
  widths : ∃ code, w.code = some code ∧ code.FitsWidths
  forwards : ∃ trace, w.trace? = some trace ∧ trace.HandsOver (b.bridge w.modifiers type) b.callee ∧
    (trace.WellTyped p (b.bridge w.modifiers type) ↔ b.Fits p type)

/-- **A written bridge** that fits a frame answers its type. -/
theorem answers_of_write {w : WrittenMethod} (p : Pool) (h : b.write flags t = .ok w)
    (ht : t.erasure = t) (hb : b.target.canBridge t = true) (hdispatch : b.dispatch ≠ .static)
    (hfits : (b.bridge w.modifiers t).FitsFrame) : b.Answers p t w := by
  have hwrites := writes_bridge h
  obtain ⟨rfl, hlegal, htrace, hwidths⟩ := code_of_write h
  have hforwards : (b.bridge w.modifiers t).Forwards b.target := forwards_bridge ht hb
  have htypes : (b.bridge w.modifiers t).erasedParameterTypes = t.parameterTypes := by
    refine Eq.trans ?_ (congrArg MethodType.parameterTypes ht)
    simp [bridge, Method.erasedParameterTypes, MethodType.erasure, Function.comp_def]
  have hrun := run_forward hlegal hforwards hdispatch
  refine ⟨hwrites, hwidths hfits, _, htrace.trans hrun, ⟨_, rfl, ?_⟩, ?_⟩
  · rw [slots_arguments hforwards]
    simp [callee, Method.type, Method.erasedParameterTypes]
  · have htyped := wellTyped_iff p hlegal hforwards
    rw [htypes] at htyped
    exact htyped

end AccessBridges

/-! ### All bridges of a registry -/

/-- What the plan writes before its access bridges, and these. -/
def MethodRecord.bridges? : MethodRecord → Option (MethodRecord × AccessBridges)
  | .withBridges main b => some (main, b)
  | _ => none

theorem MethodRecord.eq_of_bridges? {r : MethodRecord} {x : MethodRecord × AccessBridges}
    (h : r.bridges? = some x) : r = .withBridges x.1 x.2 := by
  cases r with
  | withBridges main b =>
    obtain rfl := Option.some.inj h
    rfl
  | _ => cases h

/-- The bridges of an entry with erased types answer these, as far as they fit a frame. -/
theorem CompiledEntry.answers_of_apply {e : CompiledEntry} {t : TypeDecl} {supportsBridges : Bool}
    {main : MethodRecord} {b : AccessBridges} {ws : List WrittenMethod} (p : Pool)
    (htypes : ∀ type ∈ e.bridgeTypes, type.erasure = type)
    (hrecord : e.record t supportsBridges = .withBridges main b)
    (hw : (e.record t supportsBridges).apply = .ok ws) :
    ∃ first rest, ws = first :: rest ∧ List.Forall₂ (fun type w =>
      (b.bridge w.modifiers type).FitsFrame → b.Answers p type w) b.types rest := by
  obtain ⟨hwritten, rfl⟩ := eq_of_record_eq_withBridges _ _ _ hrecord
  obtain ⟨first, rest, rfl, -, -, hrest⟩ := written_of_apply hw hwritten
  have hbridged : ∀ type ∈ e.bridged t supportsBridges,
      type.erasure = type ∧ e.method.canBridge type = true := by
    intro type htype
    obtain ⟨htype, hbridge⟩ := mem_bridged _ _ _ htype
    exact ⟨htypes type htype, hbridge⟩
  have hdispatch : (if t.isInterface then Dispatch.interface else .virtual) ≠ .static := by
    split <;> exact Dispatch.noConfusion
  refine ⟨first, rest, rfl, ((List.forall₂_and_left _ _).2 ⟨hbridged, hrest⟩).imp ?_⟩
  rintro type w ⟨⟨ht, hbridge⟩, hw⟩
  exact AccessBridges.answers_of_write p hw ht hbridge hdispatch

namespace Registry

/-- **Access bridges forward.** Each bridge that a prepared registry writes, and whose parameters
fit a frame, calls its method once, with its own parameters in their places, and its code is well
typed exactly if the method fits. -/
theorem access_bridges_forward {r : Registry} {d : Draft} {scope : GraphScope} {validate : Bool}
    {p : Pool} {claimable : LatentMatcher} {q : PreparedRegistry} {release : Release}
    {plan : RelocationPlan} {m : Method} {main : MethodRecord} {b : AccessBridges}
    {ws : List WrittenMethod} (h : r.prepare d scope validate p claimable = .ok q)
    (hrecord : (q.compile release plan).record m = .withBridges main b)
    (hw : ((q.compile release plan).record m).apply = .ok ws) :
    ∃ first rest, ws = first :: rest ∧ List.Forall₂ (fun type w =>
      (b.bridge w.modifiers type).FitsFrame → b.Answers p type w) b.types rest := by
  obtain ⟨s, h, -⟩ := prepares_of_prepare h
  rw [PreparedRegistry.record_compile] at hrecord hw
  cases he : q.entries.get? m.identity with
  | none =>
    rw [he] at hrecord
    cases hrecord
  | some e =>
    rw [he, Option.elim_some] at hrecord hw
    refine CompiledEntry.answers_of_apply p ?_ hrecord hw
    intro type htype
    exact h.erasure_types he type (List.mem_filter.1 htype).1

/-- A class of words overrides what a generic class accepts. The bridge for callers that do not know
of words casts what it is given. -/
theorem access_bridges_forward_generic :
    let text : TypeRef := .named "java.lang.String"
    let accept (owner : String) (type : TypeRef) : Method :=
      { owner, name := "accept", modifiers := .of [.accPublic], parameters := [{ type }] }
    let p := Pool.empty.register
      { name := "a.Holder", modifiers := .of [.accPublic], typeVariables := [{ symbol := "T" }]
        methods := [accept "a.Holder" (.typeVar "T" .object)] }
    let d : Draft :=
      { decl := { name := "a.Words", modifiers := .of [.accPublic]
                  superclass := some (.parameterized "a.Holder" [text])
                  methods := [accept "a.Words" text] } }
    let rules : Registry :=
      { rules := [{ matcher := .resolved (.named "accept"), handler := .implement .stub }] }
    ∃ q main b first w, rules.prepare d .hierarchy true p .always = .ok q ∧
      (q.compile .default).record (accept "a.Words" text) = .withBridges main b ∧
        (MethodRecord.withBridges main b).apply = .ok [first, w] ∧
          w.parameterTypes = [.object] ∧ ∃ trace, w.trace? = some trace ∧
            trace.WellTyped p (b.bridge w.modifiers ⟨.void, [.object]⟩) := by
  intro text accept p d rules
  have facts : (rules.prepare d .hierarchy true p .always).toOption.any (fun q =>
      ((q.compile .default).record (accept "a.Words" text)).bridges?.any fun x =>
        decide (x.2.types = [⟨.void, [.object]⟩] ∧ x.2.target = accept "a.Words" text) &&
          (MethodRecord.withBridges x.1 x.2).apply.toOption.any fun _ => true) = true := by
    decide +kernel
  obtain ⟨q, h, hq⟩ := exists_ok_of_any facts
  obtain ⟨⟨main, b⟩, hx, hbridges⟩ := (Option.any_eq_true _ _).1 hq
  have hrecord := MethodRecord.eq_of_bridges? hx
  obtain ⟨hbridges, happly⟩ := Bool.and_eq_true_iff.1 hbridges
  obtain ⟨htypes, htarget⟩ := of_decide_eq_true hbridges
  obtain ⟨ws, hws, -⟩ := exists_ok_of_any happly
  obtain ⟨first, rest, rfl, hall⟩ := access_bridges_forward h hrecord (hrecord ▸ hws)
  rw [htypes] at hall
  cases hall with
  | @cons _ w _ _ hbridge hnone =>
    cases hnone
    have hslots : TypeRef.totalSlots
        (b.bridge w.modifiers ⟨.void, [.object]⟩).parameterTypes = 1 := rfl
    have hfits : (b.bridge w.modifiers ⟨.void, [.object]⟩).FitsFrame := by
      rw [Method.FitsFrame, Method.frameSize, hslots, Method.receiverSlots]
      split <;> decide
    replace hbridge := hbridge hfits
    obtain ⟨trace, htrace, -, htyped⟩ := hbridge.forwards
    refine ⟨q, main, b, first, w, h, hrecord, hws, hbridge.writes.parameterTypes, trace, htrace, ?_⟩
    refine htyped.2 ⟨?_, ?_⟩
    · rw [htarget]
      decide +kernel
    · rw [htarget]
      decide +kernel

/-- A method of a generic class is overridden where the variable stands for texts. The bridge for
callers that know of texts returns what the method returns, which is any object. -/
theorem access_bridges_return_any_object :
    let text : TypeRef := .named "java.lang.String"
    let get : Method :=
      { owner := "a.Box", name := "get", modifiers := .of [.accPublic]
        returnType := .typeVar "T" .object }
    let p := Pool.empty.register
      { name := "a.Box", modifiers := .of [.accPublic], typeVariables := [{ symbol := "T" }]
        methods := [get] }
    let d : Draft := .subclass "a.Sub" (.of [.accPublic]) (.parameterized "a.Box" [text])
    let rules : Registry :=
      { rules := [{ matcher := .resolved (.named "get"), handler := .implement .stub }] }
    ∃ q main b first w, rules.prepare d .hierarchy true p .always = .ok q ∧
      (q.compile .default).record get = .withBridges main b ∧
        (MethodRecord.withBridges main b).apply = .ok [first, w] ∧ w.returnType = text ∧
          w.trace? = some ⟨[⟨b.callee, [.loaded .reference 0]⟩], some (.result b.callee)⟩ ∧
            b.callee.type.returnType = .object ∧
              p.isAssignable "java.lang.String" BinaryName.object = false ∧
                ∀ trace, w.trace? = some trace →
                  ¬trace.WellTyped p (b.bridge w.modifiers ⟨text, []⟩) := by
  intro text get p d rules
  have facts : (rules.prepare d .hierarchy true p .always).toOption.any (fun q =>
      ((q.compile .default).record get).bridges?.any fun x =>
        (MethodRecord.withBridges x.1 x.2).apply.toOption.any fun ws =>
          decide (ws.length = 2 ∧ ∀ w ∈ ws.drop 1, w.returnType = text ∧
            w.trace? = some ⟨[⟨x.2.callee, [.loaded .reference 0]⟩], some (.result x.2.callee)⟩ ∧
              x.2.callee.type.returnType = .object ∧
                ∀ trace ∈ w.trace?, ¬trace.WellTyped p (x.2.bridge w.modifiers ⟨text, []⟩))) =
      true := by decide +kernel
  obtain ⟨q, h, hq⟩ := exists_ok_of_any facts
  obtain ⟨⟨main, b⟩, hx, hbridges⟩ := (Option.any_eq_true _ _).1 hq
  obtain ⟨ws, hws, hbodies⟩ := exists_ok_of_any hbridges
  obtain ⟨hlength, hall⟩ := of_decide_eq_true hbodies
  obtain ⟨first, w, rfl⟩ := List.length_eq_two.1 hlength
  obtain ⟨hreturn, htrace, hcallee, htyped⟩ := hall w (List.mem_singleton_self w)
  exact ⟨q, main, b, first, w, h, MethodRecord.eq_of_bridges? hx, hws, hreturn, htrace, hcallee,
    by decide +kernel, htyped⟩

end Registry

end ClassForge
