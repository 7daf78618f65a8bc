import ClassForge.Proofs.VisibilityBridges

/-!
# Whether written methods have code

A class file may give code to a method that is neither abstract nor native, and has to give it code
then. What a method is written with is decided in several places: a record with code strips the two
flags, a record without code sets one of them, access bridges take over the flags of the method
that they stand beside, and visibility bridges those of the method that they expose.

The last of these looks at no flag. That it comes out right is due to the registry, which exposes
methods that are not abstract and changes no flags of theirs. So code and flags do not agree in
every record, but in those that a registry plans (`MethodRecord.Coherent`), and code in front of a
record leaves it so.

## Main definitions

* `WrittenMethod.CodeAgrees` — code and flags of a written method agree
* `MethodRecord.Coherent` — what a record has to be like for that
* `MethodRecord.prependAll` — a record with any amount of code in front

## Main results

* `MethodRecord.Coherent.prepend`, `MethodRecord.Coherent.prependAll` — code in front
* `MethodRecord.Coherent.apply` — what a coherent record writes
* `Registry.code_agrees_with_flags` — the records of a registry
-/

namespace ClassForge

/-- The method has code exactly if it is not abstract, and it is not native. If it has code, it has
no default. -/
structure WrittenMethod.CodeAgrees (w : WrittenMethod) : Prop where
  code_iff : w.code.isSome = true ↔ w.modifiers.has .accAbstract = false
  not_native : w.modifiers.has .accNative = false
  no_default : w.code.isSome = true → w.defaultValue = none

/-! ### Flags -/

/-- The flags that a method is written with, those aside that bear on visibility. -/
theorem Method.has_writtenModifiers (m : Method) (v : Visibility) (hasCode : Bool) {f : Flag}
    (hf : f ∉ Modifiers.visibilityFlags) :
    (m.writtenModifiers v hasCode).has f =
      if f = .accAbstract then !hasCode else f ≠ .accNative && m.modifiers.has f := by
  rw [writtenModifiers, Modifiers.has_withVisibility _ _ hf]
  cases hasCode <;> cases f <;> simp

theorem AccessBridges.has_modifiers (m : Modifiers) {f : Flag}
    (hf : f ∈ [.accAbstract, .accNative]) : (modifiers m).has f = false := by
  simp_all [modifiers]

theorem Modifiers.has_ofVisibilityBridge (m : Modifiers) (f : Flag) :
    m.ofVisibilityBridge.has f =
      ((m.has f || f ∈ [.accSynthetic, .accBridge]) && f ≠ .accNative) := by
  simp [ofVisibilityBridge]

/-- A method that is written as abstract exactly if it gets no code. -/
theorem WrittenMethod.codeAgrees_of_writtenModifiers {w : WrittenMethod} {m : Method}
    {v : Visibility} (h : w.modifiers = m.writtenModifiers v w.code.isSome)
    (hdefault : w.code.isSome = true → w.defaultValue = none) : w.CodeAgrees where
  code_iff := by
    rw [h, m.has_writtenModifiers v _ (by decide)]
    simp
  not_native := by
    rw [h, m.has_writtenModifiers v _ (by decide)]
    simp
  no_default := hdefault

/-- Access bridges have code. -/
theorem AccessBridges.codeAgrees_of_write {b : AccessBridges} {m : Modifiers} {ts : List MethodType}
    {ws : List WrittenMethod}
    (h : List.Forall₂ (fun t w => b.write (modifiers m) t = .ok w) ts ws) :
    ∀ w ∈ ws, w.CodeAgrees ∧ w.code.isSome = true := by
  induction h with
  | nil => exact List.forall_mem_nil _
  | cons hw _ ih =>
    obtain ⟨code, -, hw⟩ := ok_of_bind hw
    obtain rfl := Except.ok.inj hw
    refine List.forall_mem_cons.2 ⟨⟨⟨iff_of_true rfl ?_, ?_, fun _ => rfl⟩, rfl⟩, ih⟩
    · exact has_modifiers m (by decide)
    · exact has_modifiers m (by decide)

namespace MethodRecord

/-! ### Coherent records -/

/-- The visibility bridge of the record is neither abstract nor native, and access bridges stand
beside a method that is written. -/
def Coherent : MethodRecord → Prop
  | visibilityBridge bridge _ _ _ =>
    bridge.modifiers.has .accAbstract = false ∧ bridge.modifiers.has .accNative = false
  | withBridges main _ => main.Coherent ∧ main.sort ≠ .skipped
  | _ => True

/-- A record that is written without code takes none in front, and any other record that takes some
is written with code then. -/
theorem sort_prepend {first : Appender} : {r r' : MethodRecord} → r.prepend first = .ok r' →
    r.sort ≠ .defined ∧ r'.sort = .implemented
  | skipped _, _, h | implemented _ _ _ _, _, h => by
    obtain rfl := Except.ok.inj h
    exact ⟨nofun, rfl⟩
  | withBridges _ _, _, h => by
    obtain ⟨main, hmain, h⟩ := ok_of_bind h
    obtain rfl := Except.ok.inj h
    rw [sort, sort]
    exact sort_prepend hmain
  | declared _ _ _, _, h | annotationDefault _ _ _, _, h | visibilityBridge _ _ _ _, _, h => by
    cases h

theorem Coherent.prepend {first : Appender} : {r r' : MethodRecord} → r.Coherent →
    r.prepend first = .ok r' → r'.Coherent
  | skipped _, _, _, h | implemented _ _ _ _, _, _, h => by
    obtain rfl := Except.ok.inj h
    trivial
  | withBridges main _, _, hr, h => by
    obtain ⟨main', hmain, h⟩ := ok_of_bind h
    obtain rfl := Except.ok.inj h
    refine ⟨hr.1.prepend hmain, ?_⟩
    rw [(sort_prepend hmain).2]
    exact nofun
  | declared _ _ _, _, _, h | annotationDefault _ _ _, _, _, h
  | visibilityBridge _ _ _ _, _, _, h => by
    cases h

/-- The record with several pieces of code in front, the last of them running first. -/
def prependAll (firsts : List Appender) (r : MethodRecord) : Build MethodRecord :=
  firsts.foldlM (fun r first => r.prepend first) r

/-- However often code is put in front of it, a coherent record stays coherent. -/
theorem Coherent.prependAll : {firsts : List Appender} → {r r' : MethodRecord} → r.Coherent →
    r.prependAll firsts = .ok r' → r'.Coherent
  | [], _, _, hr, h => Except.ok.inj h ▸ hr
  | first :: firsts, r, r', hr, h => by
    rw [MethodRecord.prependAll, List.foldlM_cons] at h
    obtain ⟨r₁, hfirst, h⟩ := ok_of_bind h
    exact (hr.prepend hfirst).prependAll h

/-- What is written agrees with the sort of its record: nothing for a record that is skipped, and
otherwise first a method that has code exactly if the sort says so. What comes after it has code. -/
structure WrittenAs (sort : RecordSort) (ws : List WrittenMethod) : Prop where
  agrees : ∀ w ∈ ws, w.CodeAgrees
  nil_iff : ws = [] ↔ sort = .skipped
  code_iff : (∃ w ∈ ws.head?, w.code.isSome = true) ↔ sort = .implemented
  code_tail : ∀ w ∈ ws.tail, w.code.isSome = true

theorem writtenAs_singleton {sort : RecordSort} {w : WrittenMethod} (hw : w.CodeAgrees)
    (hsort : sort = if w.code.isSome then .implemented else .defined) : WrittenAs sort [w] where
  agrees := List.forall_mem_singleton.2 hw
  nil_iff := by
    rw [hsort]
    split <;> simp
  code_iff := by
    rw [hsort]
    cases hcode : w.code.isSome <;> simp [hcode]
  code_tail := List.forall_mem_nil _

/-- Access bridges come after the method that they stand beside. -/
theorem WrittenAs.append {sort : RecordSort} {ws rest : List WrittenMethod} (h : WrittenAs sort ws)
    (hsort : sort ≠ .skipped) (hrest : ∀ w ∈ rest, w.CodeAgrees ∧ w.code.isSome = true) :
    WrittenAs sort (ws ++ rest) := by
  have hne : ws ≠ [] := fun hnil => hsort (h.nil_iff.1 hnil)
  refine ⟨fun w hw => ?_, ?_, ?_, fun w hw => ?_⟩
  · exact (List.mem_append.1 hw).elim (h.agrees w) fun hw => (hrest w hw).1
  · simp [hne, hsort]
  · rw [List.head?_append_of_ne_nil _ hne]
    exact h.code_iff
  · rw [List.tail_append_of_ne_nil hne] at hw
    exact (List.mem_append.1 hw).elim (h.code_tail w) fun hw => (hrest w hw).2

/-- **What a coherent record writes.** -/
theorem Coherent.apply : {r : MethodRecord} → {ws : List WrittenMethod} → r.Coherent →
    r.apply = .ok ws → WrittenAs r.sort ws
  | skipped _, _, _, h => by
    obtain rfl := Except.ok.inj h
    exact ⟨List.forall_mem_nil _, by simp [sort], by simp [sort], List.forall_mem_nil _⟩
  | declared _ _ _, _, _, h | annotationDefault _ _ _, _, _, h => by
    obtain rfl := Except.ok.inj h
    exact writtenAs_singleton (WrittenMethod.codeAgrees_of_writtenModifiers rfl nofun) rfl
  | implemented _ _ _ _, _, _, h => by
    obtain ⟨code, -, h⟩ := ok_of_bind h
    obtain rfl := Except.ok.inj h
    exact writtenAs_singleton (WrittenMethod.codeAgrees_of_writtenModifiers rfl fun _ => rfl) rfl
  | visibilityBridge _ _ _ _, _, hr, h => by
    obtain ⟨code, -, h⟩ := ok_of_bind h
    obtain rfl := Except.ok.inj h
    exact writtenAs_singleton ⟨iff_of_true rfl hr.1, hr.2, fun _ => rfl⟩ rfl
  | withBridges _ _, _, hr, h => by
    obtain ⟨written, hmain, h⟩ := ok_of_bind h
    obtain ⟨rest, hrest, h⟩ := ok_of_bind h
    obtain rfl := Except.ok.inj h
    exact (hr.1.apply hmain).append hr.2
      (AccessBridges.codeAgrees_of_write (forall₂_of_mapM hrest))

end MethodRecord

/-! ### The records of a registry -/

/-- The record of an entry is coherent if a visibility bridge of it exposes a method that is not
abstract. -/
theorem Entry.coherent_record {e : Entry} {t : Target} {decl : TypeDecl} {supportsBridges : Bool}
    (he : e.handler = .bridge → e.method.isAbstract = false) :
    ((e.compile t).record decl supportsBridges).Coherent := by
  have hmain : (e.compile t).main.Coherent := by
    unfold CompiledEntry.main Entry.compile
    cases hhandler : e.handler with
    | noCode | implement _ | defaultValue _ => trivial
    | bridge =>
      refine ⟨?_, ?_⟩
      · rw [Modifiers.has_ofVisibilityBridge]
        simpa [Method.isAbstract] using he hhandler
      · rw [Modifiers.has_ofVisibilityBridge]
        simp
  rw [CompiledEntry.record_eq]
  split
  · trivial
  · split
    · exact hmain
    · exact ⟨hmain, (CompiledHandler.signatures_record _ _ _ _).2⟩

namespace Registry

variable {r : Registry} {d : Draft} {scope : GraphScope} {validate : Bool} {p : Pool}
  {claimable : LatentMatcher} {q : PreparedRegistry}

/-- **The records of a registry are coherent.** -/
theorem coherent_record (h : r.prepare d scope validate p claimable = .ok q) (release : Release)
    (plan : RelocationPlan) (m : Method) : ((q.compile release plan).record m).Coherent := by
  rw [PreparedRegistry.record_compile]
  cases he : q.entries.get? m.identity with
  | none => trivial
  | some e =>
    refine Entry.coherent_record fun hhandler => ?_
    -- only families whose representative is not abstract are exposed
    obtain ⟨node, -, hneeds, rfl⟩ := exposed_of_handler h he hhandler
    simp only [Scene.needsBridge, Bool.and_eq_true, Bool.not_eq_true'] at hneeds
    exact hneeds.1.1.1.2

/-- **Code and flags agree in whatever a registry writes**, however often code is put in front of
the record of a method. Each written method has code exactly if it is not abstract, and none is
native. Nothing is written exactly if the sort of the record says so, and the method that is written
first has code exactly if the sort says so. -/
theorem code_agrees_with_flags (h : r.prepare d scope validate p claimable = .ok q)
    (release : Release) (plan : RelocationPlan) (m : Method) {firsts : List Appender}
    {record : MethodRecord} {ws : List WrittenMethod}
    (hrecord : ((q.compile release plan).record m).prependAll firsts = .ok record)
    (hw : record.apply = .ok ws) :
    (∀ w ∈ ws, (w.code.isSome = true ↔ w.modifiers.has .accAbstract = false) ∧
      w.modifiers.has .accNative = false) ∧
    (ws = [] ↔ record.sort = .skipped) ∧
    ((∃ w ∈ ws.head?, w.code.isSome = true) ↔ record.sort = .implemented) := by
  have hwrites := ((coherent_record h release plan m).prependAll hrecord).apply hw
  exact ⟨fun w hw => ⟨(hwrites.agrees w hw).code_iff, (hwrites.agrees w hw).not_native⟩,
    hwrites.nil_iff, hwrites.code_iff⟩

/-- A native method of a generic class is overridden and answered by an access bridge, with code in
front of the override. -/
theorem code_agrees_with_flags_generic :
    let text : TypeRef := .named "java.lang.String"
    let put : Method :=
      { owner := "a.Box", name := "put", modifiers := .of [.accPublic, .accNative]
        parameters := [{ type := .typeVar "T" .object }] }
    let p := Pool.empty.register
      { name := "a.Box", modifiers := .of [.accPublic], typeVariables := [{ symbol := "T" }]
        methods := [put] }
    let d : Draft := .subclass "a.Sub" (.of [.accPublic]) (.parameterized "a.Box" [text])
    let rules : Registry :=
      { rules := [{ matcher := .resolved (.named "put"), handler := .implement .stub }] }
    let firsts : List Appender := [.fragment (.join [.pushNull, .pop 1]), .fragment .empty]
    ∃ q, rules.prepare d .hierarchy true p .always = .ok q ∧
      ∃ record, ((q.compile .default).record put).prependAll firsts = .ok record ∧
        ∃ ws, record.apply = .ok ws ∧ ws.map (·.descriptor) =
            ["(Ljava/lang/Object;)V", "(Ljava/lang/String;)V"] ∧
          (∀ w ∈ ws, (w.code.isSome = true ↔ w.modifiers.has .accAbstract = false) ∧
            w.modifiers.has .accNative = false) ∧
          (ws = [] ↔ record.sort = .skipped) ∧
          ((∃ w ∈ ws.head?, w.code.isSome = true) ↔ record.sort = .implemented) := by
  intro text put p d rules firsts
  have facts : (rules.prepare d .hierarchy true p .always).toOption.any (fun q =>
      (((q.compile .default).record put).prependAll firsts).toOption.any fun record =>
        record.apply.toOption.any fun ws => decide (ws.map (·.descriptor) =
          ["(Ljava/lang/Object;)V", "(Ljava/lang/String;)V"])) = true := by
    decide +kernel
  obtain ⟨q, h, hq⟩ := exists_ok_of_any facts
  obtain ⟨record, hrecord, hwritten⟩ := exists_ok_of_any hq
  obtain ⟨ws, hw, hdescriptors⟩ := exists_ok_of_any hwritten
  have hagrees := code_agrees_with_flags h .default .none put hrecord hw
  exact ⟨q, h, record, hrecord, ws, hw, of_decide_eq_true hdescriptors, hagrees⟩

end Registry

end ClassForge
