import ClassForge.Proofs.Acceptance
import ClassForge.Proofs.Outcomes
import ClassForge.Registry.Compile

/-!
# The signatures that are written

A class file tells its methods apart by name and descriptor. Which of these a plan contributes can
be read off the plan, before any code is made: its own method's, unless nothing is written, and one
for each access bridge. Code and annotations play no part, and putting code in front adds a
signature only where nothing was to be written.

## Main definitions

* `MethodRecord.signatures` — the signatures that a plan contributes
* `CompiledEntry.main`, `CompiledEntry.bridgesFor` — the parts of the plan for an entry
* `CompiledEntry.bridged` — the types that an entry answers by access bridges

## Main results

* `MethodRecord.signatures_apply`, `MethodRecord.signatures_mapM` — nothing else is written
* `CompiledEntry.record_eq` — the plan for an entry
* `CompiledEntry.signatures_record` — which signatures the entry of a method contributes
-/

namespace ClassForge

/-- The name and the descriptor of a written method. -/
def WrittenMethod.fileSignature (m : WrittenMethod) : String × String := (m.name, m.descriptor)

theorem WrittenMethod.fileSignature_of (m : Method) (modifiers : Modifiers) :
    (WrittenMethod.of m modifiers).fileSignature = m.fileSignature := by
  simp [fileSignature, Method.fileSignature]

/-- The written method declares the same as `m`, up to flags, annotations and code. -/
structure WrittenMethod.Writes (w : WrittenMethod) (m : Method) : Prop where
  name : w.name = m.name
  returnType : w.returnType = m.returnType
  parameterTypes : w.parameterTypes = m.parameterTypes

theorem WrittenMethod.Writes.fileSignature {w : WrittenMethod} {m : Method} (h : w.Writes m) :
    w.fileSignature = m.fileSignature := by
  rw [WrittenMethod.fileSignature, descriptor, h.name, h.returnType, h.parameterTypes]
  simp [Method.fileSignature, Method.descriptor, MethodType.descriptor,
    MethodToken.parameterTypes, Function.comp_def]

/-- The signature of an access bridge to `m` for some erased types. -/
def Method.bridgeSignature (m : Method) (t : MethodType) : String × String :=
  (m.name, t.descriptor)

namespace MethodRecord

/-- The signatures of the methods that the plan contributes, in the order in which they are
written. -/
def signatures : MethodRecord → List (String × String)
  | skipped _ => []
  | declared m _ _ | implemented m _ _ _ | annotationDefault m _ _ => [m.fileSignature]
  | visibilityBridge bridge _ _ _ => [bridge.fileSignature]
  | withBridges main bridges =>
    main.signatures ++ bridges.types.map bridges.target.bridgeSignature

theorem fileSignature_write (m : Method) (modifiers : Modifiers)
    (sources : List AnnotationSource) :
    (write m modifiers sources).fileSignature = m.fileSignature :=
  WrittenMethod.fileSignature_of m modifiers

end MethodRecord

/-! ### Bridges -/

namespace AccessBridges

theorem fileSignature_bridge (b : AccessBridges) (flags : Modifiers) (t : MethodType) :
    (b.bridge flags t).fileSignature = b.target.bridgeSignature t := by
  simp [bridge, Method.fileSignature, Method.bridgeSignature, Method.descriptor,
    MethodType.descriptor, Function.comp_def]

theorem writes_bridge {b : AccessBridges} {flags : Modifiers} {t : MethodType}
    {w : WrittenMethod} (h : b.write flags t = .ok w) : w.Writes (b.bridge flags t) := by
  obtain ⟨code, -, h⟩ := ok_of_bind h
  obtain rfl := Except.ok.inj h
  exact ⟨rfl, rfl, rfl⟩

theorem fileSignature_mapM {b : AccessBridges} {flags : Modifiers} {ts : List MethodType}
    {ws : List WrittenMethod} (h : ts.mapM (b.write flags) = .ok ws) :
    ws.map (·.fileSignature) = ts.map b.target.bridgeSignature := by
  replace h := forall₂_of_mapM h
  induction h with
  | nil => rfl
  | cons hw _ ih =>
    rw [List.map_cons, List.map_cons, (writes_bridge hw).fileSignature, fileSignature_bridge, ih]

end AccessBridges

/-! ### Plans -/

namespace MethodRecord

/-- **A plan writes its signatures** and nothing else. -/
theorem signatures_apply : {r : MethodRecord} → {ws : List WrittenMethod} → r.apply = .ok ws →
    ws.map (·.fileSignature) = r.signatures
  | skipped _, ws, h => by
    obtain rfl := Except.ok.inj h
    rfl
  | declared m sources v, ws, h => by
    obtain rfl := Except.ok.inj h
    exact congrArg ([·]) (fileSignature_write m _ _)
  | annotationDefault m _ sources, ws, h => by
    obtain rfl := Except.ok.inj h
    exact congrArg ([·])
      (fileSignature_write m (m.writtenModifiers m.visibility false) sources)
  | implemented m _ sources v, ws, h => by
    obtain ⟨code, -, h⟩ := ok_of_bind h
    obtain rfl := Except.ok.inj h
    exact congrArg ([·]) (fileSignature_write m (m.writtenModifiers v true) sources)
  | visibilityBridge bridge _ _ sources, ws, h => by
    obtain ⟨code, -, h⟩ := ok_of_bind h
    obtain rfl := Except.ok.inj h
    exact congrArg ([·]) (fileSignature_write bridge bridge.modifiers sources)
  | withBridges main bridges, ws, h => by
    obtain ⟨written, hmain, h⟩ := ok_of_bind h
    obtain ⟨rest, hrest, h⟩ := ok_of_bind h
    obtain rfl := Except.ok.inj h
    rw [List.map_append, signatures_apply hmain, AccessBridges.fileSignature_mapM hrest,
      signatures]

/-- What several plans write. -/
theorem signatures_mapM {plan : Method → MethodRecord} {ms : List Method}
    {ws : List (List WrittenMethod)} (h : (ms.mapM fun m => (plan m).apply) = .ok ws) :
    ws.flatten.map (·.fileSignature) = ms.flatMap fun m => (plan m).signatures := by
  replace h := forall₂_of_mapM h
  induction h with
  | nil => rfl
  | cons hm _ ih =>
    rw [List.flatten_cons, List.map_append, List.flatMap_cons, signatures_apply hm, ih]

/-- Code in front of a plan changes nothing about what is written, except that a method that was not
to be written now is. -/
theorem signatures_prepend {first : Appender} : {r r' : MethodRecord} →
    r.prepend first = .ok r' →
      r'.signatures = r.signatures ∨
        r.sort = .skipped ∧ r'.signatures = r.method.fileSignature :: r.signatures
  | skipped m, r', h => by
    obtain rfl := Except.ok.inj h
    exact .inr ⟨rfl, rfl⟩
  | implemented m _ _ _, r', h => by
    obtain rfl := Except.ok.inj h
    exact .inl rfl
  | withBridges main bridges, r', h => by
    obtain ⟨main', hmain, h⟩ := ok_of_bind h
    obtain rfl := Except.ok.inj h
    rcases signatures_prepend hmain with heq | ⟨hsort, heq⟩
    · exact .inl (by rw [signatures, signatures, heq])
    · exact .inr ⟨hsort, by rw [signatures, signatures, heq]; rfl⟩
  | declared _ _ _, _, h | annotationDefault _ _ _, _, h | visibilityBridge _ _ _ _, _, h => by
    cases h

end MethodRecord

/-- The code of a type initializer leaves a record as it was, or it comes in front of it. -/
theorem TypeInitializer.wrap_cases {i : TypeInitializer} {r r' : MethodRecord}
    (h : i.wrap r = .ok r') : r' = r ∨ ∃ first, r.prepend first = .ok r' := by
  unfold wrap at h
  split at h
  · exact .inl (Except.ok.inj h).symm
  · exact .inr ⟨_, h⟩

/-! ### Entries -/

/-- A handler plans one method, the one that it is asked for, and writes it. -/
theorem CompiledHandler.written_of_apply {h : CompiledHandler} {m : Method}
    {sources : List AnnotationSource} {v : Visibility} {ws : List WrittenMethod}
    (hw : (h.record m sources v).apply = .ok ws) : ∃ w, ws = [w] ∧ w.Writes m := by
  cases h with
  | noCode | defaultValue _ =>
    obtain rfl := Except.ok.inj hw
    exact ⟨_, rfl, rfl, rfl, rfl⟩
  | implement _ | bridge _ _ =>
    obtain ⟨code, -, hw⟩ := ok_of_bind hw
    obtain rfl := Except.ok.inj hw
    exact ⟨_, rfl, rfl, rfl, rfl⟩

theorem CompiledHandler.signatures_record (h : CompiledHandler) (m : Method)
    (sources : List AnnotationSource) (v : Visibility) :
    (h.record m sources v).signatures = [m.fileSignature] ∧
      (h.record m sources v).sort ≠ .skipped := by
  cases h with
  | noCode | implement _ | defaultValue _ | bridge _ _ => exact ⟨rfl, nofun⟩

namespace CompiledEntry

variable (e : CompiledEntry) (t : TypeDecl) (supportsBridges : Bool)

/-- The plan for the method of the entry, without bridges. -/
def main : MethodRecord := e.handler.record e.method e.sources e.visibility

/-- The types that the entry answers by access bridges in the type `t`. An interface has none beside
a method without code. -/
def bridged : List MethodType :=
  if supportsBridges && !(t.isInterface &&
      (e.handler.record e.method e.sources e.visibility).sort ≠ .implemented) then
    e.bridgeTypes.filter e.method.canBridge
  else []

/-- The access bridges that answer some types in the type `t`. -/
def bridgesFor (types : List MethodType) : AccessBridges where
  owner := t.name
  dispatch := if t.isInterface then .interface else .virtual
  target := e.method
  types
  sources := e.sources

/-- **The plan for an entry** is that for its method, with access bridges if there are types to
answer. A visibility bridge is not written if the format has no bridges. -/
theorem record_eq :
    e.record t supportsBridges =
      if e.isBridge && !supportsBridges then .skipped e.method
      else if e.bridged t supportsBridges = [] then e.main
      else .withBridges e.main (e.bridgesFor t (e.bridged t supportsBridges)) := by
  cases supportsBridges with
  | false =>
    have hnone : e.bridged t false = [] := by simp [bridged]
    rw [hnone, if_pos rfl]
    cases hb : e.isBridge <;> simp [record, main, hb]
  | true =>
    simp only [record, bridged, main, Bool.not_true, Bool.false_eq_true, if_false, Bool.and_false,
      Bool.true_and]
    generalize (t.isInterface &&
      decide ((e.handler.record e.method e.sources e.visibility).sort ≠ .implemented)) = withheld
    cases withheld with
    | true => simp
    | false => cases e.bridgeTypes.filter e.method.canBridge <;> simp [bridgesFor]

theorem mem_bridged {type : MethodType} (h : type ∈ e.bridged t supportsBridges) :
    type ∈ e.bridgeTypes ∧ e.method.canBridge type = true := by
  unfold bridged at h
  split at h
  · exact List.mem_filter.1 h
  · cases h

/-- A plan with bridges is that of an entry that is written. -/
theorem eq_of_record_eq_withBridges {main : MethodRecord} {b : AccessBridges}
    (h : e.record t supportsBridges = .withBridges main b) :
    (supportsBridges = true ∨ e.isBridge = false) ∧
      b = e.bridgesFor t (e.bridged t supportsBridges) := by
  rw [record_eq] at h
  split at h
  · cases h
  · rename_i hwritten
    split at h
    · unfold CompiledEntry.main at h
      cases hhandler : e.handler <;> rw [hhandler] at h <;> cases h
    · obtain ⟨-, rfl⟩ := MethodRecord.withBridges.inj h
      refine ⟨?_, rfl⟩
      cases supportsBridges <;> simp_all

/-- **What an entry contributes**: its method and the access bridges beside it, or nothing if it is
a visibility bridge and the format has no bridges. -/
theorem signatures_record :
    (e.record t supportsBridges).signatures =
      if e.isBridge && !supportsBridges then []
      else e.method.fileSignature ::
        (e.bridged t supportsBridges).map e.method.bridgeSignature := by
  have hmain : e.main.signatures = [e.method.fileSignature] :=
    (e.handler.signatures_record e.method e.sources e.visibility).1
  rw [record_eq]
  split
  · rfl
  · split
    · rename_i hnone
      rw [hmain, hnone, List.map_nil]
    · rw [MethodRecord.signatures, hmain]
      rfl

/-- Whatever an entry contributes has the name of its method. -/
theorem name_of_mem_signatures {x : String × String}
    (h : x ∈ (e.record t supportsBridges).signatures) : x.1 = e.method.name := by
  rw [signatures_record] at h
  split at h
  · cases h
  · rcases List.mem_cons.1 h with rfl | h
    · rfl
    · obtain ⟨_, -, rfl⟩ := List.mem_map.1 h
      rfl

/-- An entry that is no visibility bridge and has no further types contributes its method. -/
theorem signatures_record_of_nil (hb : e.isBridge = false) (ht : e.bridgeTypes = []) :
    (e.record t supportsBridges).signatures = [e.method.fileSignature] ∧
      (e.record t supportsBridges).sort ≠ .skipped := by
  have hnone : e.bridged t supportsBridges = [] := by simp [bridged, ht]
  have hrecord : e.record t supportsBridges = e.main := by simp [record_eq, hb, hnone]
  rw [hrecord]
  exact e.handler.signatures_record e.method e.sources e.visibility

end CompiledEntry

end ClassForge
