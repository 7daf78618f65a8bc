import ClassForge.Proofs.FamilyMembers
import ClassForge.Proofs.StackKinds

/-!
# The kinds of values in a family

A family is found by erased parameter types as they look where it is seen, but a call of it hands
over arguments for the parameter types as its representative declares them. The two differ where
type variables are replaced on the way up to the declaration. They may not differ in what the stack
sees: there are as many parameters, and if what stands for a type variable is a reference, wherever
it is written down, then each of them takes a value of the same kind.

Both are one statement. Whatever `f` reads off parameter types and does not change when a
declaration is seen from below, it reads off the key of a family, off all its erased types and off
its representative alike (`Node.Agrees`). Kinds are such a thing only as long as the bindings of a
type lead to references, so this is an invariant on bindings (`Bindings.ToReferences`).

## Main definitions

* `TypeRef.IsClassType` — a reference to a supertype whose type arguments stand for references
* `Node.Agrees` — all parameter types of a family look alike

## Main results

* `Pool.invariantOn_agrees` — families agree on what does not depend on the point of view
* `GraphScope.length_of_locate`, `GraphScope.kinds_of_locate` — the parameters of the method that
  answers a super call
-/

namespace ClassForge

theorem OrderedMap.mem_of_get?_ofList {κ α : Type} [DecidableEq κ] {es : List (κ × α)} {k : κ}
    {v : α} (h : (OrderedMap.ofList es).get? k = some v) : (k, v) ∈ es := by
  have hfold {es : List (κ × α)} {m : OrderedMap κ α}
      (h : (es.foldl (fun m e => m.insert e.1 e.2) m).get? k = some v) :
      m.get? k = some v ∨ (k, v) ∈ es := by
    induction es generalizing m with
    | nil => exact .inl h
    | cons e es ih =>
      rcases ih h with h | h
      · rw [get?_insert] at h
        split at h
        · obtain rfl := Option.some.inj h
          subst k
          exact .inr List.mem_cons_self
        · exact .inl h
      · exact .inr (List.mem_cons_of_mem _ h)
  exact (hfold h).resolve_left (by simp)

/-- A map made of entries has a value for each of their keys, and it comes with the key. -/
theorem OrderedMap.exists_get?_ofList {κ α : Type} [DecidableEq κ] {es : List (κ × α)} {k : κ}
    (h : k ∈ es.map Prod.fst) : ∃ v, (ofList es).get? k = some v ∧ (k, v) ∈ es := by
  have hfold {es : List (κ × α)} {m : OrderedMap κ α}
      (h : (m.get? k).isSome = true ∨ k ∈ es.map Prod.fst) :
      ((es.foldl (fun m e => m.insert e.1 e.2) m).get? k).isSome = true := by
    induction es generalizing m with
    | nil => exact h.resolve_right List.not_mem_nil
    | cons e es ih =>
      refine ih ?_
      rw [get?_insert]
      split
      · exact .inl rfl
      · rename_i hne
        exact h.imp_right fun h => (List.mem_cons.1 h).resolve_left hne
  obtain ⟨v, hv⟩ := Option.isSome_iff_exists.1 (hfold (m := empty) (.inr h))
  exact ⟨v, hv, mem_of_get?_ofList hv⟩

/-! ### What stands for type variables -/

/-- Whatever stands for a type variable is a reference. -/
def Bindings.ToReferences (b : Bindings) : Prop :=
  ∀ symbol r, b.get? symbol = some r → ValueKind.of r = some .reference

theorem Bindings.toReferences_empty : Bindings.ToReferences .empty := by
  intro symbol r h
  rw [OrderedMap.get?_empty] at h
  cases h

namespace TypeRef

/-- A class or an interface, and its type arguments stand for references. -/
def IsClassType : TypeRef → Prop
  | named _ => True
  | parameterized _ arguments => ∀ a ∈ arguments, ValueKind.of a = some .reference
  | _ => False

instance : DecidablePred IsClassType
  | named _ => .isTrue trivial
  | parameterized _ arguments =>
    List.decidableBAll (fun a => ValueKind.of a = some .reference) arguments
  | void | primitive _ | array _ | typeVar _ _ | target => .isFalse id

theorem hasReferenceBound_of_kind {t : TypeRef} (h : ValueKind.of t = some .reference) :
    t.HasReferenceBound := by
  cases t with
  | typeVar _ bound => exact h
  | _ => trivial

/-- Replacing type variables by references does not change the kinds of values. -/
theorem kind_substitute {b : Bindings} (hb : b.ToReferences) :
    {t : TypeRef} → t.HasReferenceBound → ValueKind.of (t.substitute b) = ValueKind.of t
  | typeVar symbol bound, ht => by
    have hbound : ValueKind.of (typeVar symbol bound) = some .reference := ht
    rw [substitute, hbound]
    cases hr : b.get? symbol with
    | none => exact hbound
    | some r => exact hb symbol r hr
  | void, _ | primitive _, _ | named _, _ | parameterized _ _, _ | array _, _ | target, _ => by
    simp [substitute, ValueKind.of, ValueKind.ofErased]

end TypeRef

/-- Bindings lead to references all the way up. -/
theorem TypeDecl.toReferences_bindings {b : Bindings} (hb : b.ToReferences) {r : TypeRef}
    (hr : r.IsClassType) (u : TypeDecl) : (u.bindings (r.substitute b)).ToReferences := by
  cases r with
  | parameterized raw arguments =>
    intro symbol v hv
    rw [TypeRef.substitute, bindings] at hv
    obtain ⟨a, ha, rfl⟩ : ∃ a ∈ arguments, a.substitute b = v := by
      have hmem := (List.of_mem_zip (OrderedMap.mem_of_get?_ofList hv)).2
      rwa [TypeRef.substituteAll_eq_map, List.mem_map] at hmem
    rw [TypeRef.kind_substitute hb (TypeRef.hasReferenceBound_of_kind (hr a ha)), hr a ha]
  | named name => simpa [TypeRef.substitute, bindings] using Bindings.toReferences_empty
  | _ => cases hr

/-! ### Families that agree -/

/-- What `f` says of the parameter types of the key, it says of all that occur in the family. -/
structure Node.Agrees {α : Type} (f : List TypeRef → α) (k : FamilyKey) (node : Node) : Prop where
  representative : f node.representative.erasedParameterTypes = f k.parameterTypes
  types : ∀ t ∈ node.types, f t.parameterTypes = f k.parameterTypes

namespace Node.Agrees

variable {α : Type} {f : List TypeRef → α} {k : FamilyKey} {node other : Node} {shape m : Method}

theorem absorb (h : node.Agrees f k) (h' : other.Agrees f k) : (node.absorb other).Agrees f k where
  representative := h.representative
  types t ht := (mem_foldl_addNew.1 ht).elim (h.types t) (h'.types t)

theorem combine (p : Pool) (h : node.Agrees f k) (h' : other.Agrees f k) :
    (node.combine p other).Agrees f k where
  representative := by
    rcases representative_combine p node other with e | e
    · exact e ▸ h.representative
    · exact e ▸ h'.representative
  types := (combine_eq_absorb p node other).2.1 ▸ (h.absorb h').types

theorem ofDeclaration (hf : f m.erasedParameterTypes = f shape.erasedParameterTypes) :
    (Node.ofDeclaration shape m).Agrees f shape.familyKey where
  representative := hf
  types t ht := by
    rcases mem_addNew.1 ht with ht | rfl
    · obtain rfl := List.mem_singleton.1 ht
      exact hf
    · rfl

theorem override (h : node.Agrees f shape.familyKey)
    (hf : f m.erasedParameterTypes = f shape.erasedParameterTypes) :
    (node.override shape m).Agrees f shape.familyKey where
  representative := hf
  types t ht := by
    rcases mem_addNew.1 ht with ht | rfl
    · rcases mem_addNew.1 ht with ht | rfl
      · exact h.types t ht
      · rfl
    · exact hf

theorem expose (h : node.Agrees f k) (bridge : Method) : (node.expose bridge).Agrees f k := by
  unfold Node.expose
  split
  · exact ⟨h.representative, h.types⟩
  · exact h

/-- A family that is found for a signature agrees with the signature. -/
theorem of_locate {g : MethodGraph} (hg : ∀ k, ∀ node ∈ g.get? k, node.Agrees f k) {s : Signature}
    (h : g.locate? s = some node) :
    f node.representative.erasedParameterTypes = f s.parameterTypes := by
  unfold MethodGraph.locate? at h
  split at h
  · rename_i found hfound
    obtain rfl := Option.some.inj h
    exact (hg _ found hfound).representative
  · obtain ⟨k, hk⟩ := (OrderedMap.mem_values_iff _).1 (List.mem_of_find?_eq_some h)
    have hmatch := List.find?_some h
    simp only [Bool.and_eq_true, decide_eq_true_eq] at hmatch
    exact (hg k node hk).representative.trans ((hg k node hk).types _ hmatch.2).symm

end Node.Agrees

namespace Pool

variable {p : Pool} {α : Type} {f : List TypeRef → α} {B : TypeDecl → Bindings → Prop}

/-- **Families agree** on whatever is the same of a declaration and of what it looks like below. -/
theorem invariantOn_agrees
    (hbindings : ∀ {t u b r}, B t b → r ∈ t.supertypes → p.resolve? r = some u →
      B u (u.bindings (r.substitute b)))
    (hshape : ∀ {t b m}, B t b → m ∈ t.methods →
      f m.erasedParameterTypes = f (m.inShape b).erasedParameterTypes) :
    p.InvariantOn B (fun _ k node => node.Agrees f k) (fun _ k node => node.Agrees f k) where
  bindings := hbindings
  sibling _ _ h := h
  combine h h' := h.combine p h'
  superclass _ _ h := h
  interfaces := id
  absorb _ h h' := h.absorb h'
  ofDeclaration hb hm _ _ := .ofDeclaration (hshape hb hm)
  override hb hm _ _ h := h.override (hshape hb hm)
  expose h := h.expose _

/-- Declarations are seen with as many parameters as they have. -/
theorem invariantOn_length (p : Pool) :
    p.InvariantOn (fun _ _ => True) (fun _ k node => node.Agrees List.length k)
      (fun _ k node => node.Agrees List.length k) :=
  invariantOn_agrees (fun _ _ _ => trivial) fun _ _ => by
    simp [Method.erasedParameterTypes, Method.inShape]

/-- The pool knows the type, and its variables stand for references. -/
def BindsReferences (p : Pool) (t : TypeDecl) (b : Bindings) : Prop :=
  p.Knows t ∧ b.ToReferences

/-- **Declarations are seen with parameters of the kinds that they have**, if all that is written
down for type variables are references. -/
theorem invariantOn_kinds (hmethods : ∀ t ∈ p.types, ∀ m ∈ t.methods, m.HasReferenceBounds)
    (hsupertypes : ∀ t ∈ p.types, ∀ r ∈ t.supertypes, r.IsClassType) :
    p.InvariantOn p.BindsReferences
      (fun _ k node => node.Agrees (List.map ValueKind.ofErased) k)
      (fun _ k node => node.Agrees (List.map ValueKind.ofErased) k) := by
  refine invariantOn_agrees (fun {t u b r} hb hr hu => ?_) fun {t b m} hb hm => ?_
  · exact ⟨knows_of_resolve? hu,
      u.toReferences_bindings hb.2 (hsupertypes t hb.1.mem r hr)⟩
  · have hbounds := (hmethods t hb.1.mem m hm).parameterTypes
    simp only [Method.erasedParameterTypes, Method.inShape, List.map_map]
    refine List.map_congr_left fun q hq => ?_
    exact (TypeRef.kind_substitute hb.2 (hbounds _ (List.mem_map_of_mem hq))).symm

end Pool

/-! ### The family that answers a super call -/

namespace GraphScope

variable {p : Pool} {t : TypeDecl} {s : Signature} {node : Node}

/-- Invariants hold of the families that super calls go to. -/
theorem exists_of_superFamilies {B : TypeDecl → Bindings → Prop}
    {Q F : TypeDecl → FamilyKey → Node → Prop} (h : p.InvariantOn B Q F)
    (hstart : ∀ r u, t.superclass = some r → p.resolve? r = some u →
      B u (u.bindings (r.substitute .empty))) (k : FamilyKey) :
    ∀ node ∈ (superFamilies p t).get? k, ∃ u, Q u k node := by
  intro node hnode
  unfold superFamilies at hnode
  split at hnode
  · rename_i u b hsuper
    obtain ⟨r, hr, hu⟩ := Option.bind_eq_some_iff.1 hsuper
    rw [Pool.supertype?_eq, Option.map_eq_some_iff] at hu
    obtain ⟨_, hu, heq⟩ := hu
    cases heq
    exact ⟨u, h.families _ _ (hstart r u hr hu) k node hnode⟩
  · simp at hnode

/-- The method that answers a super call has as many parameters as the call has arguments. -/
theorem length_of_locate (h : (hierarchy.compile p t).superGraph.locate? s = some node) :
    node.representative.erasedParameterTypes.length = s.parameterTypes.length := by
  refine Node.Agrees.of_locate (fun k node hnode => ?_) h
  obtain ⟨_, hagrees⟩ :=
    exists_of_superFamilies p.invariantOn_length (fun _ _ _ _ => trivial) k node hnode
  exact hagrees

/-- **The method that answers a super call takes arguments of the kinds of the signature**, if all
that is written down for type variables are references. -/
theorem kinds_of_locate (hmethods : ∀ u ∈ p.types, ∀ m ∈ u.methods, m.HasReferenceBounds)
    (hsupertypes : ∀ u ∈ t :: p.types, ∀ r ∈ u.supertypes, r.IsClassType)
    (h : (hierarchy.compile p t).superGraph.locate? s = some node) :
    node.representative.erasedParameterTypes.map ValueKind.ofErased =
      s.parameterTypes.map ValueKind.ofErased := by
  rw [List.forall_mem_cons] at hsupertypes
  have hinvariant := Pool.invariantOn_kinds hmethods hsupertypes.2
  have hstart (r : TypeRef) (u : TypeDecl) (hr : t.superclass = some r)
      (hu : p.resolve? r = some u) : p.BindsReferences u (u.bindings (r.substitute .empty)) := by
    refine ⟨Pool.knows_of_resolve? hu, u.toReferences_bindings Bindings.toReferences_empty ?_⟩
    exact hsupertypes.1 r (by simp [TypeDecl.supertypes, hr])
  refine Node.Agrees.of_locate (fun k node hnode => ?_) h
  obtain ⟨_, hagrees⟩ := exists_of_superFamilies hinvariant hstart k node hnode
  exact hagrees

end GraphScope

end ClassForge
