import ClassForge.Constructors
import ClassForge.Proofs.FirstMatch
import ClassForge.Proofs.GeneratedCode
import ClassForge.Proofs.SuperCalls

/-!
# Constructors that call the superclass

A strategy declares constructors on a type after those of the superclass, and adds a rule that makes
each of them a super call. The two look at the superclass in different ways. What is declared has
the parameters as the type sees them: type variables are replaced as the reference to the superclass
says, and a parameter of the superclass itself becomes one of the type. The super call then looks
for a constructor of the superclass whose parameters, *as they are declared*, erase to the same
types.

So a constructor that is declared finds something to call exactly if its erased parameters are those
of some constructor of the superclass. Its own counterpart is sure to be one if no parameter changes
its erasure on the way (`TypeRef.Stays`). A type variable that is replaced changes it, and so does
the superclass as the type of a parameter. The parameters have to fit a frame, so that a class file
can name their local variables.

Whether the constructor is bound to the rule at all is another matter. Like every method it is
offered only if the type may name the types of its parameters. And the type with its constructors
has to be accepted, for which no two of them may have the same descriptor.

## Main definitions

* `TypeRef.Stays` — a type erases to the same, declared and seen from below
* `Method.Counterpart` — what is declared after a constructor
* `Code.CallsConstructor` — the code calls a constructor of the superclass, and nothing else

## Main results

* `ConstructorStrategy.exists_counterpart` — where constructors come from
* `ConstructorStrategy.constructors_call_super` — which of them get their code
* `ConstructorStrategy.constructors_lose_super_calls` — some get none
-/

namespace ClassForge

/-! ### Types that move to another owner -/

namespace TypeRef

/-- What is inside of arrays and behind type variables. -/
def core : TypeRef → TypeRef
  | typeVar _ bound => bound.core
  | array component => component.core
  | t => t

/-- The reference erases to the same type once type variables are replaced and it has moved from a
member of `owner` to one of the type `name`: nothing that is replaced shows, and it is no reference
to the owner itself. -/
structure Stays (b : Bindings) (owner name : String) (t : TypeRef) : Prop where
  erasure : (t.substitute b).erasure = t.erasure
  owner : (t.substitute b).core = named owner → name = owner
  target : (t.substitute b).core ≠ .target

instance (b : Bindings) (owner name : String) : DecidablePred (Stays b owner name) := fun t =>
  decidable_of_iff ((t.substitute b).erasure = t.erasure ∧
      ((t.substitute b).core = named owner → name = owner) ∧ (t.substitute b).core ≠ .target)
    ⟨fun h => ⟨h.1, h.2.1, h.2.2⟩, fun h => ⟨h.erasure, h.owner, h.target⟩⟩

variable {owner name : String}

/-- **A type that moves** from a member of one type to a member of another erases to the same
exactly if it is no reference to either. -/
theorem erasure_attach_detach_iff :
    (t : TypeRef) → (((t.detach owner).attach name).erasure = t.erasure ↔
      (t.core = named owner → name = owner) ∧ t.core ≠ .target)
  | void | primitive _ | parameterized _ _ => by simp [detach, attach, core]
  | target => by simp [detach, attach, core]
  | named n => by
    by_cases hn : n = owner
    · simp [detach, attach, core, hn]
    · simp [detach, attach, core, hn]
  | typeVar _ bound => by simpa [detach, attach, core] using erasure_attach_detach_iff bound
  | array component => by simpa [detach, attach, core] using erasure_attach_detach_iff component

theorem Stays.erasure_seen {b : Bindings} {t : TypeRef} (h : t.Stays b owner name) :
    (((t.substitute b).detach owner).attach name).erasure = t.erasure :=
  ((erasure_attach_detach_iff _).2 ⟨h.owner, h.target⟩).trans h.erasure

/-- Detaching a member from a type does not change the kinds of its values. -/
theorem kind_detach (owner : String) :
    (t : TypeRef) → ValueKind.of (t.detach owner) = ValueKind.of t
  | typeVar _ bound => by
    have ih := kind_detach owner bound
    rwa [detach]
  | named n => by
    rw [detach]
    split <;> rfl
  | void | primitive _ | parameterized _ _ | array _ | target => by
    simp [detach, ValueKind.of, ValueKind.ofErased]

theorem hasReferenceBound_detach {t : TypeRef} (h : t.HasReferenceBound) :
    (t.detach owner).HasReferenceBound := by
  cases t with
  | typeVar _ bound =>
    have hbound : ValueKind.of bound = some .reference := h
    rw [detach]
    exact (kind_detach owner bound).trans hbound
  | named n =>
    rw [detach]
    split <;> trivial
  | void | primitive _ | parameterized _ _ | array _ | target => simp [detach, HasReferenceBound]

theorem hasReferenceBound_substitute {b : Bindings} (hb : b.ToReferences) {t : TypeRef}
    (h : t.HasReferenceBound) : (t.substitute b).HasReferenceBound := by
  cases t with
  | typeVar symbol bound =>
    rw [substitute]
    cases hr : b.get? symbol with
    | none => exact h
    | some r => exact hasReferenceBound_of_kind (hb symbol r hr)
  | _ => simp [substitute, HasReferenceBound]

end TypeRef

/-- The code does nothing but call a constructor of the class `owner`, and returns. -/
structure Code.CallsConstructor (code : Code) (m : Method) (owner : String) (c : Method) :
    Prop where
  instructions : code.instructions = (Fragment.loadArguments m true).instructions ++
    [.invoke .special ⟨owner, c.name, c.type⟩, .ret none]
  exact : code.ReturnsExactly m

/-! ### Constructors that are declared -/

/-- A constructor in order: what it takes are values, and nothing about it is a fault. -/
structure Method.IsProperConstructor (c : Method) : Prop where
  bounds : c.HasReferenceBounds
  visibility : c.modifiers.hasConflictingVisibility = false
  flags : c.modifiers.hasAny [.accStatic, .accAbstract, .accFinal, .accNative] = false
  result : c.returnType = .void
  parameters : ∀ t ∈ c.parameterTypes, t ≠ .void
  default : c.defaultValue = none

instance : DecidablePred Method.IsProperConstructor := fun c =>
  decidable_of_iff (c.HasReferenceBounds ∧ c.modifiers.hasConflictingVisibility = false ∧
      c.modifiers.hasAny [.accStatic, .accAbstract, .accFinal, .accNative] = false ∧
      c.returnType = .void ∧ (∀ t ∈ c.parameterTypes, t ≠ .void) ∧ c.defaultValue = none)
    ⟨fun ⟨hb, hv, hf, hr, hp, hd⟩ => ⟨hb, hv, hf, hr, hp, hd⟩,
      fun h => ⟨h.bounds, h.visibility, h.flags, h.result, h.parameters, h.default⟩⟩

theorem Method.IsProperConstructor.has_eq_false {c : Method} (h : c.IsProperConstructor) {f : Flag}
    (hf : f ∈ [Flag.accStatic, .accAbstract, .accFinal, .accNative]) :
    c.modifiers.has f = false :=
  Bool.eq_false_of_not_eq_true (List.any_eq_false.1 h.flags f hf)

/-- A constructor in order has no fault in a class. -/
theorem TypeDecl.isFaultless_of_constructor {t : TypeDecl} {c : Method}
    (ht : t.isInterface = false) (hc : c.isConstructor = true) (h : c.IsProperConstructor) :
    t.IsFaultless c := by
  refine ⟨fun hordinary => by simp [Method.isOrdinary, hc] at hordinary, ?_⟩
  have habstract : c.isAbstract = false := h.has_eq_false (by decide)
  have hparameters : c.parameters.any (·.type.isVoid) = false := by
    have := h.parameters
    simpa [MethodToken.parameterTypes, TypeRef.isVoid_iff] using this
  have hresult : c.returnType.isVoid = true := TypeRef.isVoid_iff.2 h.result
  simp [methodFaults, h.visibility, ht, h.flags, hresult, habstract, h.default, hparameters]

theorem Modifiers.hasConflictingVisibility_withVisibility (m : Modifiers) (v : Visibility) :
    (m.withVisibility v).hasConflictingVisibility = false := by
  cases v <;>
    simp [withVisibility, hasConflictingVisibility, visibilityFlags, Visibility.flags]

/-- The bindings of a type in a reference to a supertype lead to references. -/
theorem TypeDecl.toReferences_bindings_empty {r : TypeRef} (hr : r.IsClassType) (u : TypeDecl) :
    (u.bindings r).ToReferences := by
  simpa using u.toReferences_bindings Bindings.toReferences_empty hr

/-- The token declares a constructor with the parameters of the constructor `c`, seen through the
bindings `b`. -/
structure Method.Counterpart (c : Method) (b : Bindings) (token : MethodToken) : Prop where
  name : token.name = constructorName
  parameters : token.parameters = ((c.inShape b).detach).parameters
  visibility : c.modifiers.hasConflictingVisibility = false →
    token.modifiers.hasConflictingVisibility = false
  flags : ∀ f ∉ Modifiers.visibilityFlags, c.modifiers.has f = false → token.modifiers.has f = false
  result : c.returnType = .void → token.returnType = .void
  default : c.defaultValue = none → token.defaultValue = none

namespace Method.Counterpart

variable {c : Method} {b : Bindings} {token : MethodToken}

theorem parameterTypes_attach (h : c.Counterpart b token) (name : String) :
    (token.attach name).parameterTypes =
      c.parameterTypes.map fun t => ((t.substitute b).detach c.owner).attach name := by
  simp [MethodToken.attach, MethodToken.mapTypes, MethodToken.parameterTypes, h.parameters,
    Method.detach, Method.inShape, Function.comp_def]

/-- The counterpart has the erased parameter types of the constructor, if it has no parameters or
none of them changes its erasure on the way. -/
theorem erasedParameterTypes_attach (h : c.Counterpart b token) {name : String}
    (hstays : token.parameters = [] ∨ ∀ x ∈ c.parameters, x.type.Stays b c.owner name) :
    (token.attach name).erasedParameterTypes = c.erasedParameterTypes := by
  have hkept : ∀ t ∈ c.parameterTypes,
      (((t.substitute b).detach c.owner).attach name).erasure = t.erasure := by
    rcases hstays with hnone | hstays
    · have hempty : c.parameters = [] := by
        have hnil := h.parameters.symm.trans hnone
        simpa [Method.detach, MethodToken.mapTypes, Method.inShape] using hnil
      simp [MethodToken.parameterTypes, hempty]
    · intro t ht
      obtain ⟨x, hx, rfl⟩ := List.mem_map.1 ht
      exact (hstays x hx).erasure_seen
  calc (token.attach name).erasedParameterTypes
      = (token.attach name).parameterTypes.map TypeRef.erasure :=
        (Method.map_erasure_parameterTypes _).symm
    _ = c.parameterTypes.map TypeRef.erasure := by
        rw [h.parameterTypes_attach, List.map_map]
        exact List.map_congr_left hkept
    _ = c.erasedParameterTypes := c.map_erasure_parameterTypes

/-- **What is declared after a constructor in order** is one. -/
theorem isProperConstructor_attach (h : c.Counterpart b token) (hb : b.ToReferences)
    (hc : c.IsProperConstructor) (name : String) :
    (token.attach name).IsProperConstructor where
  bounds := by
    refine ⟨?_, fun t ht => ?_⟩
    · rw [MethodToken.attach, MethodToken.mapTypes, h.result hc.result]
      trivial
    · rw [h.parameterTypes_attach] at ht
      obtain ⟨declared, hdeclared, rfl⟩ := List.mem_map.1 ht
      exact TypeRef.hasReferenceBound_attach _ (TypeRef.hasReferenceBound_detach
        (TypeRef.hasReferenceBound_substitute hb (hc.bounds.parameterTypes declared hdeclared)))
  visibility := h.visibility hc.visibility
  flags := by
    refine List.any_eq_false.2 fun f hf => ?_
    have hother : f ∉ Modifiers.visibilityFlags := by
      revert f
      decide
    exact Bool.not_eq_true _ ▸ h.flags f hother (hc.has_eq_false hf)
  result := by
    rw [MethodToken.attach, MethodToken.mapTypes, h.result hc.result]
    rfl
  parameters := by
    intro t ht hvoid
    rw [h.parameterTypes_attach] at ht
    obtain ⟨declared, hdeclared, rfl⟩ := List.mem_map.1 ht
    have hbound := hc.bounds.parameterTypes declared hdeclared
    have hkind := congrArg ValueKind.of hvoid
    rw [TypeRef.kind_attach, TypeRef.kind_detach, TypeRef.kind_substitute hb hbound] at hkind
    exact hc.parameters declared hdeclared (TypeRef.eq_void_of_kind hbound hkind)
  default := h.default hc.default

end Method.Counterpart

theorem Method.counterpart_inShape {c : Method} (b : Bindings) (hc : c.name = constructorName) :
    c.Counterpart b (c.inShape b).detach where
  name := hc
  parameters := rfl
  visibility := id
  flags := fun _ _ => id
  result := fun h => by
    simp [detach, inShape, MethodToken.mapTypes, h, TypeRef.substitute, TypeRef.detach]
  default := id

namespace ConstructorStrategy

variable {s : ConstructorStrategy} {p : Pool} {t : TypeDecl} {tokens : List MethodToken}
  {token : MethodToken}

theorem exists_counterpart_of_imitations {superclass : TypeDecl} {b : Bindings}
    (h : s.imitations t superclass b (visibleConstructors p t superclass) = .ok tokens)
    (htoken : token ∈ tokens) :
    (s = .withoutParameters → token.parameters = []) ∧
      ∃ c ∈ visibleConstructors p t superclass, c.Counterpart b token := by
  have hname (c : Method) (hc : c ∈ visibleConstructors p t superclass) :
      c.name = constructorName := by
    have hkind := (List.mem_filter.1 hc).2
    rw [Bool.and_eq_true] at hkind
    exact of_decide_eq_true hkind.1
  cases s with
  | noConstructors =>
    obtain rfl := Except.ok.inj h
    cases htoken
  | withoutParameters =>
    rw [imitations] at h
    split at h
    · rename_i hany
      obtain rfl := Except.ok.inj h
      obtain rfl := List.mem_singleton.1 htoken
      obtain ⟨c, hc, hempty⟩ := List.any_eq_true.1 hany
      have hempty : c.parameters = [] := List.isEmpty_iff.1 hempty
      refine ⟨fun _ => rfl, c, hc, rfl, ?_, fun _ => by decide, ?_, fun _ => rfl, fun _ => rfl⟩
      · simp [MethodToken.constructor, Method.detach, MethodToken.mapTypes, Method.inShape, hempty]
      · intro f hf _
        have hpublic : f ≠ .accPublic := fun heq => hf (heq ▸ by decide)
        simp [MethodToken.constructor, hpublic]
    · cases h
  | imitate =>
    obtain rfl := Except.ok.inj h
    obtain ⟨c, hc, rfl⟩ := List.mem_map.1 htoken
    exact ⟨by simp, c, hc, c.counterpart_inShape b (hname c hc)⟩
  | imitatePublic =>
    obtain rfl := Except.ok.inj h
    obtain ⟨c, hc, rfl⟩ := List.mem_map.1 htoken
    have hc := (List.mem_filter.1 hc).1
    exact ⟨by simp, c, hc, c.counterpart_inShape b (hname c hc)⟩
  | imitateOpening =>
    obtain rfl := Except.ok.inj h
    obtain ⟨c, hc, rfl⟩ := List.mem_map.1 htoken
    have hseen := c.counterpart_inShape b (hname c hc)
    refine ⟨by simp, c, hc, hseen.name, hseen.parameters, fun _ => ?_, fun f hf hnone => ?_,
      hseen.result, hseen.default⟩
    · exact Modifiers.hasConflictingVisibility_withVisibility ..
    · exact (Modifiers.has_withVisibility _ _ hf).trans (hseen.flags f hf hnone)

/-- **Where constructors come from.** Each of them has the parameters of a constructor of the
superclass that the type may call, as the type sees them. -/
theorem exists_counterpart (h : s.tokens t p = .ok tokens) (htoken : token ∈ tokens) :
    ∃ reference superclass, t.superclass = some reference ∧ p.resolve? reference = some superclass ∧
      (s = .withoutParameters → token.parameters = []) ∧
      ∃ c ∈ visibleConstructors p t superclass,
        c.Counterpart (superclass.bindings reference) token := by
  unfold ConstructorStrategy.tokens at h
  split at h
  · obtain rfl := Except.ok.inj h
    cases htoken
  · rename_i reference hreference
    have hsuper : t.superclass = some reference := by
      split at hreference
      · cases hreference
      · exact hreference
    split at h
    · cases h
    · rename_i name hname
      obtain ⟨superclass, hresolve, h⟩ := ok_of_bind h
      have hknown := Implementation.resolve_eq_ok_iff.1 hresolve
      refine ⟨reference, superclass, hsuper, Option.bind_eq_some_iff.2 ⟨name, hname, hknown⟩, ?_⟩
      exact exists_counterpart_of_imitations h htoken

theorem proper_of_mem (h : s.tokens t p = .ok tokens)
    (hreferences : ∀ reference ∈ t.superclass, reference.IsClassType)
    (hconstructors : ∀ u ∈ p.types, ∀ c ∈ u.methods, c.isConstructor = true →
      c.IsProperConstructor) {m : Method} (hm : m ∈ tokens.map (·.attach t.name)) :
    t.superclass ≠ none ∧ m.isConstructor = true ∧ m.IsProperConstructor := by
  obtain ⟨token, htoken, rfl⟩ := List.mem_map.1 hm
  obtain ⟨reference, superclass, hsuper, hresolve, -, c, hc, hcounterpart⟩ :=
    exists_counterpart h htoken
  obtain ⟨hin, hkind⟩ := List.mem_filter.1 hc
  rw [Bool.and_eq_true] at hkind
  refine ⟨by simp [hsuper], decide_eq_true hcounterpart.name, ?_⟩
  exact hcounterpart.isProperConstructor_attach
    (superclass.toReferences_bindings_empty (hreferences reference hsuper))
    (hconstructors superclass (Pool.knows_of_resolve? hresolve).mem c hin hkind.1) t.name

theorem inject_eq_append (h : s.tokens t p = .ok tokens) (htoken : token ∈ tokens) (r : Registry) :
    s.inject r = r.append rule := by
  cases s with
  | noConstructors =>
    obtain rfl := Except.ok.inj h
    cases htoken
  | withoutParameters | imitate | imitatePublic | imitateOpening => rfl

theorem visibleConstructors_sameHeader (p : Pool) {t u : TypeDecl} (h : t.SameHeader u)
    (superclass : TypeDecl) :
    visibleConstructors p u superclass = visibleConstructors p t superclass := by
  simp only [visibleConstructors, Method.isVisibleTo, p.isMemberVisible_sameHeader h]

end ConstructorStrategy

/-- Types that all have values have kinds. -/
theorem ValueKind.exists_kinds {ts : List TypeRef} (hbounds : ∀ t ∈ ts, t.HasReferenceBound)
    (hvoid : ∀ t ∈ ts, t ≠ .void) :
    ∃ kinds : List ValueKind, ts.map ValueKind.of = kinds.map some := by
  induction ts with
  | nil => exact ⟨[], rfl⟩
  | cons t ts ih =>
    rw [List.forall_mem_cons] at hbounds hvoid
    obtain ⟨kinds, hkinds⟩ := ih hbounds.2 hvoid.2
    obtain ⟨kind, hkind⟩ := Option.ne_none_iff_exists'.1 fun hnone =>
      hvoid.1 (TypeRef.eq_void_of_kind hbounds.1 hnone)
    exact ⟨kind :: kinds, by simp [hkind, hkinds]⟩

/-! ### Code of constructors -/

namespace Target

open ConstructorStrategy

variable {t : Target} {m : Method} {reference : TypeRef} {superclass : TypeDecl} {code : Code}

/-- What the super call of a constructor invokes is one of the constructors of the superclass. -/
theorem superCall?_constructor (hmoved : t.moved = .empty)
    (hsuper : t.type.superclass = some reference)
    (hresolve : t.pool.resolve? reference = some superclass) (hm : m.isConstructor = true)
    {call : SuperCall} (h : t.superCall? m.signature = some call) :
    ∃ c ∈ visibleConstructors t.pool t.type superclass,
      c.erasedParameterTypes = m.erasedParameterTypes ∧
        call = ⟨c, superclass.name, .special, .empty⟩ := by
  obtain ⟨c, owner, rfl, howner, -, hfound⟩ := superCall?_special hmoved h
  obtain rfl : superclass.name = owner :=
    Option.some.inj ((Pool.superName?_of_resolve? hsuper hresolve).symm.trans howner)
  rcases hfound with ⟨-, hc, herased, hvisible, u, hu, hmem⟩ | ⟨hname, -⟩
  · obtain rfl : u = superclass :=
      Option.some.inj (hu.symm.trans (Pool.find?_of_resolve? hresolve).2)
    exact ⟨c, List.mem_filter.2 ⟨hmem, by rw [hc, hvisible]; rfl⟩, herased, rfl⟩
  · exact absurd (of_decide_eq_true hm) hname

/-- **A constructor has a super call exactly if the superclass has a constructor** that the type may
call and that takes the same erased types. -/
theorem exists_constructor_code_iff (hmoved : t.moved = .empty)
    (hsuper : t.type.superclass = some reference)
    (hresolve : t.pool.resolve? reference = some superclass)
    (hconstructors : ∀ c ∈ superclass.methods, c.isConstructor = true → c.IsProperConstructor)
    (hm : m.isConstructor = true) (hproper : m.IsProperConstructor) :
    (∃ code, (Appender.implementation .callSuper t).apply m = .ok code) ↔
      ∃ c ∈ visibleConstructors t.pool t.type superclass,
        c.erasedParameterTypes = m.erasedParameterTypes := by
  constructor
  · rintro ⟨code, h⟩
    obtain ⟨call, hcall, -⟩ := Appender.apply_callSuper_eq_ok_iff.1 h
    obtain ⟨c, hc, herased, -⟩ := superCall?_constructor hmoved hsuper hresolve hm hcall
    exact ⟨c, hc, herased⟩
  · rintro ⟨c, hc, herased⟩
    obtain ⟨hmem, hkind⟩ := List.mem_filter.1 hc
    have hname : m.signature.name = constructorName := of_decide_eq_true hm
    have hcall : t.superCall? m.signature = t.constructorCall? m.erasedParameterTypes := by
      rw [superCall?, hmoved, OrderedMap.get?_empty]
      exact if_pos hname
    obtain ⟨c', hc'⟩ := Option.isSome_iff_exists.1 (List.find?_isSome.2 ⟨c, hmem, by
      rw [Bool.and_eq_true] at hkind
      simp only [hkind, herased, decide_true, Bool.and_self]⟩ :
        (superclass.methods.find? fun c => c.isConstructor &&
          c.erasedParameterTypes = m.erasedParameterTypes && c.isVisibleTo t.type t.pool).isSome)
    have hspecial : SuperCall.special? c' superclass.name =
        some ⟨c', superclass.name, .special, .empty⟩ := by
      have hfound := List.find?_some hc'
      simp only [Bool.and_eq_true] at hfound
      have hcode : c'.isAbstract = false :=
        (hconstructors c' (List.mem_of_find?_eq_some hc') hfound.1.1).has_eq_false (by decide)
      rw [SuperCall.special?, hcode]
      rfl
    have hconstructor : t.constructorCall? m.erasedParameterTypes =
        some ⟨c', superclass.name, .special, .empty⟩ := by
      have howner := Pool.superName?_of_resolve? hsuper hresolve
      simp only [constructorCall?, superName?, howner, (Pool.find?_of_resolve? hresolve).2, hc',
        Option.bind_eq_bind, Option.bind_some, hspecial]
    exact ⟨_, Appender.apply_callSuper_eq_ok_iff.2 ⟨_, hcall.trans hconstructor,
      Method.isLegal_loadArguments_iff.2
        (ValueKind.exists_kinds hproper.bounds.parameterTypes hproper.parameters), rfl, rfl⟩⟩

/-- **The code of a constructor** hands the parameters over to a constructor of the superclass. -/
theorem callsConstructor_of_apply (hmoved : t.moved = .empty)
    (hsuper : t.type.superclass = some reference)
    (hresolve : t.pool.resolve? reference = some superclass)
    (hconstructors : ∀ c ∈ superclass.methods, c.isConstructor = true → c.IsProperConstructor)
    (hm : m.isConstructor = true) (hproper : m.IsProperConstructor)
    (h : (Appender.implementation .callSuper t).apply m = .ok code) :
    ∃ c ∈ visibleConstructors t.pool t.type superclass,
      c.erasedParameterTypes = m.erasedParameterTypes ∧
        code.CallsConstructor m superclass.name c := by
  obtain ⟨c, owner, hcall, ⟨kinds, hkinds⟩, hcode⟩ := Appender.instructions_of_callSuper hmoved h
  obtain ⟨_, hc, herased, heq⟩ := superCall?_constructor hmoved hsuper hresolve hm hcall
  cases heq
  have hcvoid : c.returnType = .void := by
    obtain ⟨hmem, hkind⟩ := List.mem_filter.1 hc
    rw [Bool.and_eq_true] at hkind
    exact (hconstructors c hmem hkind.1).result
  have hstatic : m.isStatic = false := hproper.has_eq_false (by decide)
  have hkind : ValueKind.of m.returnType = none := by rw [hproper.result]; rfl
  refine ⟨c, hc, herased, ⟨by simpa [hstatic, hkind] using hcode, ?_⟩⟩
  rw [Code.returnsExactly_iff (_ ++ [_]) (by simpa using hcode),
    Method.stackAfter?_call hproper.bounds hkinds (congrArg List.length herased), hkind]
  refine ⟨hstatic, ?_, by rw [hcvoid]; rfl⟩
  rw [herased, m.kinds_erasedParameterTypes]

end Target

/-! ### Binding constructors -/

theorem Draft.decl_foldl_addMethod (tokens : List MethodToken) (d : Draft) :
    (tokens.foldl Draft.addMethod d).decl =
      { d.decl with methods := d.decl.methods ++ tokens.map (·.attach d.decl.name) } := by
  induction tokens generalizing d with
  | nil => simp
  | cons token tokens ih => simp [ih, Draft.addMethod]

theorem Draft.sameHeader_foldl_addMethod (tokens : List MethodToken) (d : Draft) :
    d.decl.SameHeader (tokens.foldl Draft.addMethod d).decl := by
  rw [decl_foldl_addMethod]
  exact ⟨rfl, rfl, rfl, rfl, rfl⟩

/-- Methods have no say in what fields are accepted. -/
theorem TypeDecl.checkFields_methods {t : TypeDecl} (ms : List Method) :
    (fs : List Field) → {seen : List String} →
      ({ t with methods := ms } : TypeDecl).checkFields seen fs = t.checkFields seen fs
  | [], _ => rfl
  | f :: fs, _ => by
    rw [checkFields, checkFields, checkFields_methods ms fs]
    rfl

/-- **A type that is accepted** still is with more methods that have no fault of their own, unless
two of its methods then have the same name and descriptor. -/
theorem Draft.check_foldl_addMethod_iff {d : Draft} {p : Pool} {tokens : List MethodToken}
    (h : d.decl.check p = .ok ())
    (hall : ∀ m ∈ tokens.map (·.attach d.decl.name), d.decl.IsFaultless m) :
    (tokens.foldl addMethod d).decl.check p = .ok () ↔
      ((d.decl.methods ++ tokens.map (·.attach d.decl.name)).map
        fun m => m.name ++ m.descriptor).Nodup := by
  obtain ⟨hheader, hfields, hmethods⟩ := TypeDecl.check_eq_ok_iff.1 h
  obtain ⟨-, -, hdeclared⟩ := TypeDecl.checkMethods_eq_ok_iff.1 hmethods
  have hfaultless (m : Method) : (tokens.foldl addMethod d).decl.IsFaultless m ↔
      d.decl.IsFaultless m := by
    rw [decl_foldl_addMethod]
    exact ⟨fun h => ⟨h.name, h.faults⟩, fun h => ⟨h.name, h.faults⟩⟩
  rw [TypeDecl.check_eq_ok_iff, TypeDecl.checkMethods_eq_ok_iff]
  simp only [hfaultless]
  rw [decl_foldl_addMethod]
  refine ⟨fun h => h.2.2.1, fun hnodup => ⟨hheader, ?_, hnodup, nofun, ?_⟩⟩
  · exact (TypeDecl.checkFields_methods _ d.decl.fields).trans hfields
  · exact List.forall_mem_append.2 ⟨hdeclared, hall⟩

/-- A type with a superclass is no interface. -/
theorem TypeDecl.isInterface_of_checkHeader {t : TypeDecl} {p : Pool}
    (h : t.checkHeader p = .ok ()) (hsuper : t.superclass ≠ none) : t.isInterface = false := by
  unfold checkHeader at h
  dsimp only at h
  split at h
  · cases h
  obtain ⟨_, -, h⟩ := ok_of_bind h
  split at h
  · contradiction
  · exact firstFault_eq_ok_iff.1 h _ List.mem_cons_self

namespace Registry

variable {r : Registry} {d : Draft} {scope : GraphScope} {p : Pool} {claimable : LatentMatcher}
  {s : Progress} {q : PreparedRegistry} {m : Method}

theorem firstRule?_append_of_none {t : TypeDecl} (h : r.firstRule? p t m = none) (last : Rule) :
    (r.append last).firstRule? p t m =
      if (last.matcher.resolve t).accepts p m then some last else none := by
  unfold firstRule? at h
  rw [firstRule?, append, List.find?_append, h, Option.none_or]
  cases ha : (last.matcher.resolve t).accepts p m <;> simp [ha]

/-- **The entry of a constructor** is what the first rule that matches makes of it, if it is offered
at all. It is in no family and no helper. -/
theorem Prepares.get?_of_constructor (h : r.Prepares d scope p claimable s q)
    (hq : q.draft.decl.check p = .ok ()) (hm : m ∈ d.decl.methods) (hc : m.isConstructor = true) :
    q.entries.get? m.identity =
      if m.IsClaimable p claimable q.draft.decl then
        (r.firstRule? p q.draft.decl m).map fun rule => .ofRule rule m [] m.visibility
      else none := by
  have hname : m.name = constructorName := of_decide_eq_true hc
  have hinitializer : m.isTypeInitializer = false := by
    simp [Method.isTypeInitializer, hname, constructorName, typeInitializerName]
  have hmember : m ∈ Scene.members q.draft.decl := by
    refine List.mem_filter.2 ⟨h.grows.mem hm, ?_⟩
    simp [Method.isVirtual, Method.isOrdinary, hc, hinitializer]
  have hhelper : s.entries.get? m.identity = none :=
    h.captured_eq_none_iff.2 fun hg => hg.2 (List.mem_map_of_mem hm)
  have hfamily : (r.scene p claimable q.draft.decl).familyBinding? q.graph.graph.values
      m.identity = none := by
    refine List.findSome?_eq_none_iff.2 fun node hnode => if_neg fun hk => ?_
    have hv := scope.isVirtual_of_mem_values p q.draft.decl (h.graph ▸ hnode)
    have hconstructor : node.representative.isConstructor = true :=
      decide_eq_true ((congrArg (·.name) hk).trans hname)
    simp [Method.isVirtual, Method.isOrdinary, hconstructor] at hv
  rw [h.get?_entries hq hinitializer fun n hn hk =>
    TypeDecl.eq_of_identity_eq hq (List.mem_filter.1 hn).1 (h.grows.mem hm) hk, hhelper, hfamily,
    if_pos hmember]
  simp only [Option.none_or, Scene.memberBinding?, Scene.claim?, Scene.ruleFor?_scene]
  by_cases hclaim : m.IsClaimable p claimable q.draft.decl
  · simp [hclaim, (Scene.admits_scene r p claimable q.draft.decl m).2 hclaim]
  · have hadmit : (r.scene p claimable q.draft.decl).admits m = false :=
      Bool.eq_false_of_not_eq_true fun ha => hclaim ((Scene.admits_scene ..).1 ha)
    simp [hclaim, hadmit]

end Registry

namespace ConstructorStrategy

variable {s : ConstructorStrategy} {d : Draft} {p : Pool} {tokens : List MethodToken}

/-- A constructor that no other rule claims is bound to the rule of the strategy, if the type may
name the types of its parameters. -/
theorem get?_of_inject {r : Registry} {scope : GraphScope} {ignored : LatentMatcher}
    {q : PreparedRegistry} {m : Method} (ht : s.tokens d.decl p = .ok tokens)
    (hm : m ∈ tokens.map (·.attach d.decl.name)) (hconstructor : m.isConstructor = true)
    (hproper : m.IsProperConstructor)
    (h : (s.inject r).prepare (tokens.foldl Draft.addMethod d) scope true p
      (.instrumentable ignored) = .ok q) :
    d.decl.SameHeader q.draft.decl ∧
      (r.firstRule? p d.decl m = none →
        q.entries.get? m.identity =
          if ∀ x ∈ m.parameters, p.isTypeVisible d.decl x.type = true then
            some (.ofRule rule m [] m.visibility)
          else none) := by
  obtain ⟨token, htoken, hattach⟩ := List.mem_map.1 hm
  have howner : m.owner = d.decl.name := hattach ▸ rfl
  rw [inject_eq_append ht htoken] at h
  obtain ⟨progress, hprep, hq⟩ := Registry.prepares_of_prepare h
  replace hq := hq rfl
  have header : d.decl.SameHeader q.draft.decl :=
    (d.sameHeader_foldl_addMethod tokens).trans hprep.grows.toSameHeader
  refine ⟨header, fun hfree => ?_⟩
  have hdeclared : m ∈ (tokens.foldl Draft.addMethod d).decl.methods := by
    rw [Draft.decl_foldl_addMethod]
    exact List.mem_append_right _ hm
  have hrule : (r.append rule).firstRule? p q.draft.decl m = some rule := by
    rw [Registry.firstRule?_append_of_none ((r.firstRule?_sameHeader p header _).trans hfree)]
    exact if_pos hconstructor
  have hclaimable : m.IsClaimable p (.instrumentable ignored) q.draft.decl ↔
      ∀ x ∈ m.parameters, p.isTypeVisible d.decl x.type = true := by
    rw [Registry.isClaimable_sameHeader header]
    refine ⟨fun h => h.parameters, fun h => ⟨by rw [hproper.result]; rfl, h, ?_⟩⟩
    simp [LatentMatcher.resolve, MethodMatcher.accepts, howner]
  rw [hprep.get?_of_constructor hq hdeclared hconstructor, hrule]
  simp only [hclaimable, Option.map_some]

/-- **Which constructors get their code.** A strategy declares constructors that are in order, so
that a type is still accepted with them unless two have the same descriptor. Of those whose
parameters fit a frame, the ones get code whose erased parameters are those of a constructor of the
superclass that the type may call, and then the code has the widths of a class file, calls such a
constructor and returns. That is the case for the constructor without parameters, and for all if no
parameter of a constructor of the superclass changes its erasure on the way. A constructor that no
other rule claims is bound to the rule of the strategy exactly if the type may name the types of its
parameters. -/
theorem constructors_call_super (ht : s.tokens d.decl p = .ok tokens)
    (hd : d.decl.check p = .ok ())
    (hreferences : ∀ reference ∈ d.decl.superclass, reference.IsClassType)
    (hconstructors : ∀ u ∈ p.types, ∀ c ∈ u.methods, c.isConstructor = true →
      c.IsProperConstructor) :
    ((tokens.foldl Draft.addMethod d).decl.check p = .ok () ↔
      ((d.decl.methods ++ tokens.map (·.attach d.decl.name)).map
        fun m => m.name ++ m.descriptor).Nodup) ∧
    ∀ m ∈ tokens.map (·.attach d.decl.name),
      ∃ reference superclass, d.decl.superclass = some reference ∧
        p.resolve? reference = some superclass ∧
        (m.FitsFrame → ∀ t graph, d.decl.SameHeader t →
          ((∃ code, (Appender.implementation .callSuper (.make t graph p)).apply m = .ok code) ↔
            ∃ c ∈ visibleConstructors p d.decl superclass,
              c.erasedParameterTypes = m.erasedParameterTypes) ∧
          (∀ code, (Appender.implementation .callSuper (.make t graph p)).apply m = .ok code →
            ∃ c ∈ visibleConstructors p d.decl superclass,
              c.erasedParameterTypes = m.erasedParameterTypes ∧
                code.CallsConstructor m superclass.name c ∧ code.FitsWidths) ∧
          (s = .withoutParameters ∨ (∀ c ∈ visibleConstructors p d.decl superclass,
              ∀ x ∈ c.parameters,
                x.type.Stays (superclass.bindings reference) c.owner d.decl.name) →
            ∃ code, (Appender.implementation .callSuper (.make t graph p)).apply m = .ok code)) ∧
        ∀ r scope ignored q, (s.inject r).prepare (tokens.foldl Draft.addMethod d) scope true p
            (.instrumentable ignored) = .ok q →
          d.decl.SameHeader q.draft.decl ∧
          (r.firstRule? p d.decl m = none →
            q.entries.get? m.identity =
              if ∀ x ∈ m.parameters, p.isTypeVisible d.decl x.type = true then
                some (.ofRule rule m [] m.visibility)
              else none) := by
  have hclass : d.decl.superclass ≠ none → d.decl.isInterface = false :=
    TypeDecl.isInterface_of_checkHeader (TypeDecl.check_eq_ok_iff.1 hd).1
  refine ⟨?_, fun m hm => ?_⟩
  · have hproper (m : Method) (hm : m ∈ tokens.map (·.attach d.decl.name)) :
        d.decl.IsFaultless m := by
      obtain ⟨hsuper, hconstructor, hproper⟩ := proper_of_mem ht hreferences hconstructors hm
      exact TypeDecl.isFaultless_of_constructor (hclass hsuper) hconstructor hproper
    exact Draft.check_foldl_addMethod_iff hd hproper
  · obtain ⟨-, hconstructor, hproper⟩ := proper_of_mem ht hreferences hconstructors hm
    obtain ⟨token, htoken, rfl⟩ := List.mem_map.1 hm
    obtain ⟨reference, superclass, hsuper, hresolve, hnone, c, hc, hcounterpart⟩ :=
      exists_counterpart ht htoken
    have hknown : superclass ∈ p.types := (Pool.knows_of_resolve? hresolve).mem
    refine ⟨reference, superclass, hsuper, hresolve, fun hframe t graph header => ?_,
      fun r scope ignored q => get?_of_inject ht hm hconstructor hproper⟩
    have hvisible := visibleConstructors_sameHeader p header superclass
    have hexists := Target.exists_constructor_code_iff (t := .make t graph p) rfl
      (header.superclass.trans hsuper) hresolve (hconstructors superclass hknown) hconstructor
      hproper
    refine ⟨hvisible ▸ hexists, fun code hcode => ?_, fun hstays => ?_⟩
    · obtain ⟨c, hc, herased, hcalls⟩ := Target.callsConstructor_of_apply (t := .make t graph p) rfl
        (header.superclass.trans hsuper) hresolve (hconstructors superclass hknown) hconstructor
        hproper hcode
      exact ⟨c, hvisible ▸ hc, herased, hcalls, Appender.fitsWidths_of_callSuper rfl hframe hcode⟩
    · refine hexists.2 ⟨c, hvisible ▸ hc, ?_⟩
      exact (hcounterpart.erasedParameterTypes_attach
        (hstays.imp hnone fun hall => hall c hc)).symm

/-- A generic class takes a list of its own elements, which is a list whatever stands for them. -/
theorem constructors_call_super_generic :
    let string : TypeRef := .named "java.lang.String"
    let collect (t : TypeRef) : List Parameter :=
      [{ type := .primitive .long }, { type := .parameterized "java.util.List" [t] }]
    let declared : Method :=
      { owner := "a.Base", name := constructorName, modifiers := .of [.accProtected]
        parameters := collect (.typeVar "T" .object) }
    let p := Pool.empty.register
      { name := "a.Base", modifiers := .of [.accPublic], typeVariables := [{ symbol := "T" }]
        methods := [declared] }
    let d : Draft := .subclass "b.Sub" (.of [.accPublic]) (.parameterized "a.Base" [string])
    let r : Registry := { rules := [{ matcher := .resolved (.named "run"), handler := .noCode }] }
    let m : Method :=
      { owner := "b.Sub", name := constructorName, modifiers := .of [.accPublic]
        parameters := collect string }
    ∃ tokens q code, imitateOpening.tokens d.decl p = .ok tokens ∧
      tokens.map (·.attach d.decl.name) = [m] ∧
      (imitateOpening.inject r).prepare (tokens.foldl Draft.addMethod d) .hierarchy true p
        (.instrumentable .never) = .ok q ∧
      (Appender.implementation .callSuper (.make q.draft.decl q.graph p)).apply m = .ok code ∧
      code.CallsConstructor m "a.Base" declared ∧ code.FitsWidths ∧
      q.entries.get? m.identity = some (.ofRule rule m [] m.visibility) := by
  intro string collect declared p d r m
  have extracted : (imitateOpening.tokens d.decl p).toOption.any (fun tokens =>
      decide (tokens.map (·.attach d.decl.name) = [m]) &&
        ((imitateOpening.inject r).prepare (tokens.foldl Draft.addMethod d) .hierarchy true p
          (.instrumentable .never)).toOption.isSome) = true := by
    decide +kernel
  obtain ⟨tokens, htokens, hfacts⟩ := exists_ok_of_any extracted
  rw [Bool.and_eq_true, decide_eq_true_eq] at hfacts
  obtain ⟨hm, hprepared⟩ := hfacts
  obtain ⟨q, h⟩ : ∃ q, (imitateOpening.inject r).prepare (tokens.foldl Draft.addMethod d) .hierarchy
      true p (.instrumentable .never) = .ok q := by
    obtain ⟨q, hq, -⟩ := exists_ok_of_any (f := fun _ => true) (by simpa using hprepared)
    exact ⟨q, hq⟩
  obtain ⟨-, hall⟩ := constructors_call_super htokens (by decide +kernel) (by decide) (by decide)
  obtain ⟨reference, superclass, hsuper, hresolve, hcalls, hentry⟩ := hall m (by rw [hm]; decide)
  obtain ⟨header, hbound⟩ := hentry r .hierarchy .never q h
  obtain ⟨-, hcode, hstays⟩ := hcalls (by decide) q.draft.decl q.graph header
  obtain rfl := Option.some.inj hsuper
  obtain rfl := Option.some.inj hresolve
  obtain ⟨code, happly⟩ := hstays (.inr (by decide +kernel))
  obtain ⟨c, hc, -, hcalls, hwidths⟩ := hcode code happly
  have hsole : visibleConstructors p d.decl (p.types.head (by decide)) = [declared] := by
    decide +kernel
  obtain rfl := List.mem_singleton.1 (hsole ▸ hc)
  have hnamed : ∀ x ∈ m.parameters, p.isTypeVisible d.decl x.type = true := by decide +kernel
  exact ⟨tokens, q, code, htokens, hm, h, happly, hcalls, hwidths,
    (hbound (by decide +kernel)).trans (if_pos hnamed)⟩

/-- The counterpart of a constructor that takes a type variable, or the class itself, takes another
type, and there is nothing that it can call. One whose parameter has a type that the subclass may
not name is declared, but bound to nothing. And two constructors may have one counterpart. -/
theorem constructors_lose_super_calls :
    let taking (owner : String) (t : TypeRef) : Method :=
      { owner, name := constructorName, modifiers := .of [.accPublic]
        parameters := [{ type := t }] }
    let declare (name parameter : String) : TypeDecl :=
      { name, modifiers := .of [.accPublic], methods := [taking name (.named parameter)] }
    let string : TypeRef := .named "java.lang.String"
    let generic (name : String) (more : List Method) : TypeDecl :=
      { name, modifiers := .of [.accPublic], typeVariables := [{ symbol := "T" }]
        methods := taking name (.typeVar "T" .object) :: more }
    let p := [generic "a.Box" [], generic "a.Text" [taking "a.Text" string],
      declare "a.Node" "a.Node", declare "a.Part" "a.Hidden",
      { name := "a.Hidden", modifiers := .empty }].foldl Pool.register .empty
    let prepare (superclass : TypeRef) : Build PreparedRegistry := do
      let d : Draft := .subclass "b.Sub" (.of [.accPublic]) superclass
      let tokens ← imitate.tokens d.decl p
      (imitate.inject {}).prepare (tokens.foldl Draft.addMethod d) .hierarchy true p
        (.instrumentable .never)
    let ofBox := taking "b.Sub" string
    let ofNode := taking "b.Sub" (.named "b.Sub")
    let ofPart := taking "b.Sub" (.named "a.Hidden")
    (∃ q, prepare (.parameterized "a.Box" [string]) = .ok q ∧
      q.draft.decl.methods = [ofBox] ∧ (q.entries.get? ofBox.identity).isSome = true ∧
      ¬ ∃ code, (Appender.implementation .callSuper (.make q.draft.decl q.graph p)).apply ofBox =
        .ok code) ∧
    (∃ q, prepare (.named "a.Node") = .ok q ∧
      q.draft.decl.methods = [ofNode] ∧ (q.entries.get? ofNode.identity).isSome = true ∧
      ¬ ∃ code, (Appender.implementation .callSuper (.make q.draft.decl q.graph p)).apply ofNode =
        .ok code) ∧
    (∃ q, prepare (.named "a.Part") = .ok q ∧
      q.draft.decl.methods = [ofPart] ∧ q.entries.get? ofPart.identity = none) ∧
    ¬ ∃ q, prepare (.parameterized "a.Text" [string]) = .ok q := by
  intro taking declare string generic p prepare ofBox ofNode ofPart
  have uncallable (superclass : TypeRef) (m : Method)
      (h : (prepare superclass).toOption.any (fun q => decide (q.draft.decl.methods = [m]) &&
        (q.entries.get? m.identity).isSome && ((Appender.implementation .callSuper
          (.make q.draft.decl q.graph p)).apply m).toOption.isNone) = true) :
      ∃ q, prepare superclass = .ok q ∧ q.draft.decl.methods = [m] ∧
        (q.entries.get? m.identity).isSome = true ∧ ¬ ∃ code,
          (Appender.implementation .callSuper (.make q.draft.decl q.graph p)).apply m =
            .ok code := by
    obtain ⟨q, hq, hfacts⟩ := exists_ok_of_any h
    simp only [Bool.and_eq_true, decide_eq_true_eq] at hfacts
    obtain ⟨⟨hmethods, hbound⟩, hnone⟩ := hfacts
    refine ⟨q, hq, hmethods, hbound, fun ⟨code, hcode⟩ => ?_⟩
    rw [hcode] at hnone
    cases hnone
  have unbound : (prepare (.named "a.Part")).toOption.any (fun q =>
      decide (q.draft.decl.methods = [ofPart]) &&
        (q.entries.get? ofPart.identity).isNone) = true := by
    decide +kernel
  have refused : (prepare (.parameterized "a.Text" [string])).toOption.isNone = true := by
    decide +kernel
  refine ⟨uncallable _ _ (by decide +kernel), uncallable _ _ (by decide +kernel), ?_,
    fun ⟨q, hq⟩ => ?_⟩
  · obtain ⟨q, hq, hfacts⟩ := exists_ok_of_any unbound
    rw [Bool.and_eq_true, decide_eq_true_eq, Option.isNone_iff_eq_none] at hfacts
    exact ⟨q, hq, hfacts⟩
  · rw [hq] at refused
    cases refused

end ConstructorStrategy

end ClassForge
