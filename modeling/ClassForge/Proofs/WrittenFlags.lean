import ClassForge.Proofs.FamilyRecords
import ClassForge.Proofs.WrittenCode
import ClassForge.Subclass

/-!
# Whether written methods obey the rules for declared ones

The check of a draft has rules for declared methods that are abstract or have a default. What is
written is more than what is declared, and it is not what is declared: whether a method is abstract
is decided by whether it gets code, and its default is that of the handler. The check comes before
all that.

Methods with code obey the rules, for they are not abstract and have no default, and so do the
bridges beside any method. What is left are the methods that are planned without code. For these the
rules can be read off their entries (`CompiledEntry.IsLegal`), and they hold of a class file exactly
if they hold of the entries (`Subclass.written_methods_are_legal_iff`). Methods that are bound as
they are declared pass because the check has seen them. A rule may bind any other method to a
handler without code, and nothing looks at those (`Subclass.writes_abstract_method`).

## Main definitions

* `WrittenMethod.IsLegal` — the rules for a written method
* `CompiledEntry.IsLegal` — the same for the entry of a method that gets no code
* `CompiledRegistry.written` — the methods that are written, if they are bound

## Main results

* `CompiledEntry.forall_isLegal_iff` — what an entry without code writes
* `Subclass.written_methods_are_legal_iff` — when a class file obeys the rules
* `Subclass.writes_abstract_method` — a class that does not
-/

namespace ClassForge

/-- The flags that no abstract method has. -/
def Modifiers.concreteFlags : List Flag :=
  [.accPrivate, .accStatic, .accFinal, .accNative, .accSynchronized, .accStrict]

/-- The rules for abstract methods and for defaults, in a type with the flags `t`. -/
structure WrittenMethod.IsLegal (w : WrittenMethod) (t : Modifiers) : Prop where
  abstract_type : w.modifiers.has .accAbstract = true → t.has .accAbstract = true
  abstract_flags : w.modifiers.has .accAbstract = true →
    w.modifiers.hasAny Modifiers.concreteFlags = false
  not_constructor : w.modifiers.has .accAbstract = true → w.name ≠ constructorName
  default_type : ∀ v ∈ w.defaultValue, t.has .accAnnotationType = true
  default_method : ∀ v ∈ w.defaultValue,
    w.modifiers.has .accStatic = false ∧ w.parameterTypes = [] ∧ v.fits w.returnType = true

/-- The default that methods get. -/
def CompiledHandler.default? : CompiledHandler → Option AnnotationValue
  | defaultValue v => some v
  | _ => none

/-- The rules for the entry of a method that gets no code, in the type `t`. -/
structure CompiledEntry.IsLegal (e : CompiledEntry) (t : TypeDecl) : Prop where
  abstract_type : t.isAbstract = true
  not_constructor : e.method.isConstructor = false
  flags : e.method.modifiers.hasAny [.accStatic, .accFinal, .accSynchronized, .accStrict] = false
  /-- The method is not written as private. -/
  visibility : e.method.visibility.widen e.main.visibility ≠ .priv
  default_type : ∀ v ∈ e.handler.default?, t.isAnnotationType = true
  default_method : ∀ v ∈ e.handler.default?,
    e.method.parameters = [] ∧ v.fits e.method.returnType = true

instance (w : WrittenMethod) (t : Modifiers) : Decidable (w.IsLegal t) :=
  decidable_of_iff
    ((w.modifiers.has .accAbstract = true → t.has .accAbstract = true ∧
        w.modifiers.hasAny Modifiers.concreteFlags = false ∧ w.name ≠ constructorName) ∧
      ∀ v ∈ w.defaultValue, t.has .accAnnotationType = true ∧
        w.modifiers.has .accStatic = false ∧ w.parameterTypes = [] ∧ v.fits w.returnType = true)
    ⟨fun h => ⟨fun ha => (h.1 ha).1, fun ha => (h.1 ha).2.1, fun ha => (h.1 ha).2.2,
        fun v hv => (h.2 v hv).1, fun v hv => (h.2 v hv).2⟩,
      fun h => ⟨fun ha => ⟨h.abstract_type ha, h.abstract_flags ha, h.not_constructor ha⟩,
        fun v hv => ⟨h.default_type v hv, h.default_method v hv⟩⟩⟩

instance (e : CompiledEntry) (t : TypeDecl) : Decidable (e.IsLegal t) :=
  decidable_of_iff
    (t.isAbstract = true ∧ e.method.isConstructor = false ∧
      e.method.modifiers.hasAny [.accStatic, .accFinal, .accSynchronized, .accStrict] = false ∧
      e.method.visibility.widen e.main.visibility ≠ .priv ∧
      ∀ v ∈ e.handler.default?, t.isAnnotationType = true ∧
        e.method.parameters = [] ∧ v.fits e.method.returnType = true)
    ⟨fun h => ⟨h.1, h.2.1, h.2.2.1, h.2.2.2.1, fun v hv => (h.2.2.2.2 v hv).1,
        fun v hv => (h.2.2.2.2 v hv).2⟩,
      fun h => ⟨h.abstract_type, h.not_constructor, h.flags, h.visibility,
        fun v hv => ⟨h.default_type v hv, h.default_method v hv⟩⟩⟩

/-! ### Methods with code -/

namespace WrittenMethod

variable {w : WrittenMethod} {t : Modifiers}

/-- Methods with code obey the rules. -/
theorem CodeAgrees.isLegal (h : w.CodeAgrees) (hcode : w.code.isSome = true) : w.IsLegal t := by
  have hconcrete : w.modifiers.has .accAbstract ≠ true := by
    rw [h.code_iff.1 hcode]
    exact Bool.false_ne_true
  have hdefault : ∀ v, v ∉ w.defaultValue := by
    rw [h.no_default hcode]
    exact nofun
  exact ⟨fun ha => absurd ha hconcrete, fun ha => absurd ha hconcrete,
    fun ha => absurd ha hconcrete, fun v hv => absurd hv (hdefault v),
    fun v hv => absurd hv (hdefault v)⟩

end WrittenMethod

namespace MethodRecord

/-- What is not written without code obeys the rules. -/
theorem WrittenAs.isLegal {sort : RecordSort} {ws : List WrittenMethod} (h : WrittenAs sort ws)
    (hsort : sort ≠ .defined) (t : Modifiers) : ∀ w ∈ ws, w.IsLegal t := by
  cases ws with
  | nil => exact List.forall_mem_nil _
  | cons first rest =>
    -- something is written, and not without code
    have himplemented : sort = .implemented := by
      cases sort with
      | skipped => cases h.nil_iff.2 rfl
      | defined => exact absurd rfl hsort
      | implemented => rfl
    obtain ⟨w, hw, hcode⟩ := h.code_iff.2 himplemented
    obtain rfl := Option.mem_some_iff.1 hw
    rw [List.forall_mem_cons]
    exact ⟨(h.agrees _ List.mem_cons_self).isLegal hcode, fun w hw =>
      (h.agrees w (List.mem_cons_of_mem _ hw)).isLegal (h.code_tail w hw)⟩

end MethodRecord

/-! ### Methods without code -/

theorem Visibility.eq_priv_of_le {v : Visibility} (h : v ≤ priv) : v = priv := by
  cases v with
  | priv => rfl
  | pkg | prot | pub => exact absurd h (by decide)

/-- What does not have the flag for it is not private. -/
theorem Modifiers.visibility_ne_priv {m : Modifiers} (h : m.has .accPrivate = false) :
    m.visibility ≠ .priv := by
  rw [visibility, h]
  split
  · decide
  · split <;> decide

/-- Only what has private visibility is private. -/
theorem Modifiers.has_accPrivate_withVisibility (m : Modifiers) (v : Visibility) :
    (m.withVisibility v).has .accPrivate = decide (v = .priv) := by
  cases v <;> simp [withVisibility, visibilityFlags, Visibility.flags]

/-- When a method without code is written with none of the flags that no abstract method has. That
it is not native takes no condition. -/
theorem Method.hasAny_writtenModifiers_eq_false_iff (m : Method) (v : Visibility) :
    (m.writtenModifiers v false).hasAny Modifiers.concreteFlags = false ↔
      m.visibility.widen v ≠ .priv ∧
        m.modifiers.hasAny [.accStatic, .accFinal, .accSynchronized, .accStrict] = false := by
  have hprivate : (m.writtenModifiers v false).has .accPrivate =
      decide (m.visibility.widen v = .priv) := by
    rw [writtenModifiers]
    exact Modifiers.has_accPrivate_withVisibility _ _
  have hother : ∀ {f : Flag}, f ∉ Modifiers.visibilityFlags → f ≠ .accAbstract →
      (m.writtenModifiers v false).has f = (decide (f ≠ .accNative) && m.modifiers.has f) := by
    intro f hf habstract
    rw [m.has_writtenModifiers v false hf, if_neg habstract]
  simp [Modifiers.concreteFlags, Modifiers.hasAny, Modifiers.visibilityFlags, hprivate, hother]

namespace CompiledEntry

variable {e : CompiledEntry} {t : TypeDecl} {supportsBridges : Bool} {ws : List WrittenMethod}

/-- How a method is written that gets no code. -/
theorem exists_apply_main (hsort : e.main.sort = .defined) :
    ∃ w, e.main.apply = .ok [w] ∧ w.Writes e.method ∧
      w.modifiers = e.method.writtenModifiers e.main.visibility false ∧
      w.defaultValue = e.handler.default? := by
  unfold main at hsort ⊢
  cases hhandler : e.handler with
  | noCode | defaultValue _ => exact ⟨_, rfl, ⟨rfl, rfl, rfl⟩, rfl, rfl⟩
  | implement _ | bridge _ _ =>
    rw [hhandler] at hsort
    cases hsort

/-- A method without code obeys the rules exactly if its entry does. -/
theorem isLegal_iff {w : WrittenMethod} (hw : w.Writes e.method)
    (hflags : w.modifiers = e.method.writtenModifiers e.main.visibility false)
    (hdefault : w.defaultValue = e.handler.default?) : w.IsLegal t.modifiers ↔ e.IsLegal t := by
  have habstract : w.modifiers.has .accAbstract = true := by
    rw [hflags, e.method.has_writtenModifiers _ _ (by decide)]
    rfl
  have hconcrete := e.method.hasAny_writtenModifiers_eq_false_iff e.main.visibility
  rw [← hflags] at hconcrete
  have hconstructor : w.name ≠ constructorName ↔ e.method.isConstructor = false := by
    rw [hw.name, Method.isConstructor, decide_eq_false_iff_not]
  have hparameters : w.parameterTypes = [] ↔ e.method.parameters = [] := by
    rw [hw.parameterTypes, MethodToken.parameterTypes, List.map_eq_nil_iff]
  constructor
  · intro h
    obtain ⟨hvisibility, hflags⟩ := hconcrete.1 (h.abstract_flags habstract)
    refine ⟨h.abstract_type habstract, hconstructor.1 (h.not_constructor habstract), hflags,
      hvisibility, hdefault ▸ h.default_type, fun v hv => ?_⟩
    obtain ⟨-, hnil, hfits⟩ := h.default_method v (hdefault ▸ hv)
    exact ⟨hparameters.1 hnil, hw.returnType ▸ hfits⟩
  · intro h
    have hnone := hconcrete.2 ⟨h.visibility, h.flags⟩
    refine ⟨fun _ => h.abstract_type, fun _ => hnone, fun _ => hconstructor.2 h.not_constructor,
      hdefault ▸ h.default_type, fun v hv => ?_⟩
    obtain ⟨hnil, hfits⟩ := h.default_method v (hdefault ▸ hv)
    refine ⟨?_, hparameters.2 hnil, hw.returnType ▸ hfits⟩
    exact Bool.eq_false_iff.2 (List.any_eq_false.1 hnone .accStatic (by decide))

/-- **What an entry without code writes** obeys the rules exactly if the entry does. -/
theorem forall_isLegal_iff (hsort : (e.record t supportsBridges).sort = .defined)
    (hw : (e.record t supportsBridges).apply = .ok ws)
    (hwritten : MethodRecord.WrittenAs .defined ws) :
    (∀ w ∈ ws, w.IsLegal t.modifiers) ↔ e.IsLegal t := by
  -- a visibility bridge without bridges in the format is skipped, and the record is not
  have hbridges : supportsBridges = true ∨ e.isBridge = false := by
    cases supportsBridges with
    | true => exact .inl rfl
    | false =>
      cases hb : e.isBridge with
      | false => exact .inr rfl
      | true =>
        rw [record_eq, hb] at hsort
        cases hsort
  obtain ⟨first, rest, rfl, hmain, -, -⟩ := written_of_apply hw hbridges
  obtain ⟨w, hw, hwrites, hflags, hdefault⟩ :=
    exists_apply_main ((sort_record hbridges).symm.trans hsort)
  obtain rfl := List.singleton_inj.1 (Except.ok.inj (hmain.symm.trans hw))
  rw [List.forall_mem_cons, isLegal_iff hwrites hflags hdefault, and_iff_left]
  exact fun w hw =>
    (hwritten.agrees w (List.mem_cons_of_mem _ hw)).isLegal (hwritten.code_tail w hw)

/-- A declared method that passes the check, if it is abstract and bound with its own default. -/
theorem isLegal_of_isFaultless (h : t.IsFaultless e.method) (habstract : e.method.isAbstract = true)
    (hdefault : ∀ v ∈ e.handler.default?, e.method.defaultValue = some v) : e.IsLegal t := by
  have hfaults := h.faults
  simp only [TypeDecl.methodFaults, List.forall_mem_cons, habstract, Bool.true_and] at hfaults
  obtain ⟨-, -, hconstructor, -, htype, hflags, hdefaultType, hmisfit, -⟩ := hfaults
  simp only [Modifiers.hasAny, List.any_cons, List.any_nil, Bool.or_eq_false_iff] at hflags
  obtain ⟨hprivate, hstatic, hfinal, -, hsynchronized, hstrict, -⟩ := hflags
  have hdeclared : ∀ v ∈ e.handler.default?,
      t.isAnnotationType = true ∧ e.method.acceptsDefault v = true := by
    intro v hv
    simp only [hdefault v hv, Option.isSome_some, Option.any_some, Bool.true_and,
      Bool.not_eq_false'] at hdefaultType hmisfit
    exact ⟨hdefaultType, hmisfit⟩
  refine ⟨by simpa using htype, ?_, ?_, ?_, fun v hv => (hdeclared v hv).1, fun v hv => ?_⟩
  · have habstract : e.method.modifiers.has .accAbstract = true := habstract
    simpa [Modifiers.hasAny, habstract] using hconstructor
  · simp only [Modifiers.hasAny, List.any_cons, List.any_nil, hstatic, hfinal, hsynchronized,
      hstrict, Bool.or_false]
  · intro hwidened
    have hle := Visibility.le_widen_left e.method.visibility e.main.visibility
    rw [hwidened] at hle
    exact Modifiers.visibility_ne_priv hprivate (Visibility.eq_priv_of_le hle)
  · have haccepts := (hdeclared v hv).2
    simp only [Method.acceptsDefault, Bool.and_eq_true, List.isEmpty_iff] at haccepts
    exact ⟨haccepts.1.2, haccepts.2⟩

end CompiledEntry

/-! ### Class files -/

/-- The methods that are written if they are bound: those of the registry, and the type
initializer. -/
def CompiledRegistry.written (c : CompiledRegistry) : List Method :=
  c.instrumented ++ [.typeInitializer c.draft.decl.name]

namespace CompiledRegistry

variable {c : CompiledRegistry} {m : Method} {ws : List WrittenMethod}

/-- If the method is planned without code, its entry obeys the rules. -/
def BindsLegally (c : CompiledRegistry) (m : Method) : Prop :=
  (c.record m).sort = .defined → ∀ e ∈ c.entries.get? m.identity, e.IsLegal c.draft.decl

instance (c : CompiledRegistry) (m : Method) : Decidable (c.BindsLegally m) :=
  inferInstanceAs (Decidable (_ → _))

/-- What is written for a method obeys the rules exactly if its entry does. -/
theorem forall_isLegal_iff (hm : (c.record m).Coherent) (hw : (c.record m).apply = .ok ws) :
    (∀ w ∈ ws, w.IsLegal c.draft.decl.modifiers) ↔ c.BindsLegally m := by
  have hwritten := hm.apply hw
  by_cases hsort : (c.record m).sort = .defined
  · cases he : c.entries.get? m.identity with
    | none =>
      -- what has no entry is skipped
      rw [record, he] at hsort
      cases hsort
    | some e =>
      have hrecord : c.record m = e.record c.draft.decl c.supportsBridges := by
        rw [record, he]
      rw [BindsLegally, he]
      simp only [Option.mem_some_iff, forall_eq', hsort, forall_const]
      rw [hsort] at hwritten
      rw [hrecord] at hsort hw
      exact CompiledEntry.forall_isLegal_iff hsort hw hwritten
  · exact iff_of_true (hwritten.isLegal hsort _) fun h => absurd h hsort

/-- The same for the type initializer, whatever code was collected for it. -/
theorem forall_isLegal_iff_of_wrap {i : TypeInitializer} {r : MethodRecord}
    (hm : (c.record m).Coherent) (hr : i.wrap (c.record m) = .ok r) (hw : r.apply = .ok ws) :
    (∀ w ∈ ws, w.IsLegal c.draft.decl.modifiers) ↔ c.BindsLegally m := by
  rcases TypeInitializer.wrap_cases hr with rfl | ⟨first, hfirst⟩
  · exact forall_isLegal_iff hm hw
  · obtain ⟨hsort, himplemented⟩ := MethodRecord.sort_prepend hfirst
    have hwritten := (hm.prepend hfirst).apply hw
    rw [himplemented] at hwritten
    exact iff_of_true (hwritten.isLegal nofun _) fun h => absurd h hsort

end CompiledRegistry

/-- **When a class file obeys the rules.** The methods of an accepted build are written as the check
of a draft asks of declared ones exactly if this can be read off the entries of those that are
planned without code. It can of each method that the draft declares as abstract, if it is bound with
its own default or without one. -/
theorem Subclass.written_methods_are_legal_iff {s : Subclass} {activation : Activation}
    {c : CompiledRegistry} {b : BuiltType} (hv : s.config.validate = true)
    (hc : s.compile = .ok c) (hb : s.make activation = .ok b) :
    ((∀ w ∈ b.classFile.methods, w.IsLegal b.classFile.modifiers) ↔
      ∀ m ∈ c.written, c.BindsLegally m) ∧
    ∀ m ∈ c.written, ∀ e ∈ c.entries.get? m.identity,
      e.method ∈ c.draft.decl.methods → e.method.isAbstract = true →
      (∀ v ∈ e.handler.default?, e.method.defaultValue = some v) → e.IsLegal c.draft.decl := by
  obtain ⟨_, hc', hb⟩ := ok_of_bind hb
  obtain rfl := Except.ok.inj (hc.symm.trans hc')
  obtain ⟨fields, -, hb⟩ := ok_of_bind hb
  obtain ⟨d, -, hc⟩ := ok_of_bind hc
  obtain ⟨q, hq, hc⟩ := ok_of_bind hc
  have hcoherent : ∀ m, (c.record m).Coherent := by
    obtain rfl := Except.ok.inj hc
    exact Registry.coherent_record hq _ _
  obtain ⟨written, hwritten, hb⟩ := ok_of_bind hb
  obtain ⟨initializer, hinitializer, hb⟩ := ok_of_bind hb
  obtain rfl := Except.ok.inj hb
  obtain ⟨record, hrecord, hinitializer⟩ := ok_of_bind hinitializer
  constructor
  · rw [CompiledRegistry.written, List.forall_mem_append, List.forall_mem_append,
      List.forall_mem_singleton]
    refine and_congr ?_ ?_
    · exact forall_mem_flatten_iff_of_mapM hwritten fun m ws hw =>
        CompiledRegistry.forall_isLegal_iff (hcoherent m) hw
    · exact CompiledRegistry.forall_isLegal_iff_of_wrap (hcoherent _) hrecord hinitializer
  · intro m _ e _ hmem habstract hdefault
    obtain rfl := Except.ok.inj hc
    obtain ⟨_, -, hcheck⟩ := Registry.prepares_of_prepare hq
    have hmethods := TypeDecl.checkMethods_eq_ok_iff.1 (TypeDecl.check_eq_ok_iff.1 (hcheck hv)).2.2
    exact CompiledEntry.isLegal_of_isFaultless (hmethods.2.2 _ hmem) habstract hdefault

/-- An abstract class declares a method without code, and makes an inherited one abstract. -/
theorem Subclass.written_methods_are_legal_abstract :
    let size : Method :=
      { owner := "a.Base", name := "size", modifiers := .of [.accPublic, .accNative]
        returnType := .primitive .int }
    let p := Pool.empty.register
      { name := "a.Base", modifiers := .of [.accPublic]
        methods := [(MethodToken.constructor (.of [.accPublic]) []).attach "a.Base", size] }
    let rule : Rule := { matcher := .resolved (.named "size"), handler := .noCode }
    let s := ((Subclass.new "a.Sub" (.named "a.Base") p).mapDraft
      (·.setModifiers (.of [.accPublic, .accAbstract]))).addRule rule
    ∃ s', s.define { name := "run", modifiers := .of [.accProtected] } .withoutCode = .ok s' ∧
      ∃ b, s'.make .passive = .ok b ∧
        b.classFile.methods.map (·.modifiers.has .accAbstract) = [true, true, false] ∧
        ∀ w ∈ b.classFile.methods, w.IsLegal b.classFile.modifiers := by
  intro size p rule s
  have facts : (s.define { name := "run", modifiers := .of [.accProtected] }
      .withoutCode).toOption.any (fun s' => s'.config.validate &&
        (s'.compile.toOption.any (fun c => decide (∀ m ∈ c.written, c.BindsLegally m)) &&
          (s'.make .passive).toOption.any fun b => decide
            (b.classFile.methods.map (·.modifiers.has .accAbstract) = [true, true, false]))) =
      true := by
    decide +kernel
  obtain ⟨s', hs, facts⟩ := exists_ok_of_any facts
  rw [Bool.and_eq_true, Bool.and_eq_true] at facts
  obtain ⟨hv, hcompiled, hmade⟩ := facts
  obtain ⟨c, hc, hbound⟩ := exists_ok_of_any hcompiled
  obtain ⟨b, hb, hwritten⟩ := exists_ok_of_any hmade
  exact ⟨s', hs, b, hb, of_decide_eq_true hwritten,
    (Subclass.written_methods_are_legal_iff hv hc hb).1.2 (of_decide_eq_true hbound)⟩

/-- A class that is not abstract, with a rule that makes an inherited method abstract. The method is
abstract in the class file, and the check lets it pass. -/
theorem Subclass.writes_abstract_method :
    let size : Method :=
      { owner := "a.Base", name := "size", modifiers := .of [.accPublic]
        returnType := .primitive .int }
    let p := Pool.empty.register
      { name := "a.Base", modifiers := .of [.accPublic]
        methods := [(MethodToken.constructor (.of [.accPublic]) []).attach "a.Base", size] }
    let s := (Subclass.new "a.Sub" (.named "a.Base") p).addRule
      { matcher := .resolved (.named "size"), handler := .noCode }
    s.config.validate = true ∧ ∃ b, s.make .passive = .ok b ∧
      ¬ ∀ w ∈ b.classFile.methods, w.IsLegal b.classFile.modifiers := by
  intro size p s
  have facts : (s.make .passive).toOption.any (fun b =>
      decide ¬ ∀ w ∈ b.classFile.methods, w.IsLegal b.classFile.modifiers) = true := by
    decide +kernel
  obtain ⟨b, hb, illegal⟩ := exists_ok_of_any facts
  exact ⟨rfl, b, hb, of_decide_eq_true illegal⟩

end ClassForge
