import ClassForge.Proofs.FamilyMembers
import ClassForge.Proofs.FirstMatch
import ClassForge.Proofs.Origins

/-!
# What an entry keeps of its family

Once a registry is prepared, the entry of a representative is all that is left of its node: records
are planned from entries alone. So the types and the visibility of an entry have to be those of the
node, whatever else was bound before and after it. They are, because the entries of virtual methods
are made in two phases only. Methods of no family are offered later, and they neither replace such
an entry nor put one in its place.

The types that a node collects are erased and each of them is there once. A step adds the erased
types of a declaration, as it is declared or as it is seen, and none that is there already.

## Main definitions

* `Node.Typed` — the types of a node are erased and distinct
* `PreparedRegistry.Binds` — a family is bound to a rule

## Main results

* `Pool.invariant_typed` — nodes stay typed
* `Registry.Prepares.family_or_helper` — where the entries of virtual methods come from
* `Registry.Prepares.get?_of_binds` — the entry of a family that is bound to a rule
-/

namespace ClassForge

/-! ### The types of a node -/

/-- The types erased. -/
def MethodType.erasure (t : MethodType) : MethodType :=
  ⟨t.returnType.erasure, t.parameterTypes.map TypeRef.erasure⟩

@[simp] theorem Method.erasure_type (m : Method) : m.type.erasure = m.type := by
  simp [MethodType.erasure, type, erasedParameterTypes]

theorem nodup_addNew {α : Type} [DecidableEq α] {xs : List α} (h : xs.Nodup) (x : α) :
    (addNew xs x).Nodup := by
  unfold addNew
  split
  · exact h
  · rename_i hx
    rw [List.nodup_append']
    exact ⟨h, List.nodup_singleton x, List.disjoint_singleton.2 hx⟩

theorem nodup_foldl_addNew {α : Type} [DecidableEq α] {xs : List α} (h : xs.Nodup) (ys : List α) :
    (ys.foldl addNew xs).Nodup := by
  induction ys generalizing xs with
  | nil => exact h
  | cons y ys ih => exact ih (nodup_addNew h y)

namespace Node

/-- The types of the node are erased, and each is there once. -/
structure Typed (node : Node) : Prop where
  erased : ∀ t ∈ node.types, t.erasure = t
  nodup : node.types.Nodup

variable {node other : Node}

theorem Typed.absorb (h : node.Typed) (h' : other.Typed) : (node.absorb other).Typed where
  erased := by
    intro t ht
    rcases mem_foldl_addNew.1 ht with ht | ht
    · exact h.erased t ht
    · exact h'.erased t ht
  nodup := nodup_foldl_addNew h.nodup other.types

theorem Typed.combine (p : Pool) (h : node.Typed) (h' : other.Typed) :
    (node.combine p other).Typed := by
  have habsorb := h.absorb h'
  obtain ⟨-, htypes, -⟩ := combine_eq_absorb p node other
  exact ⟨htypes ▸ habsorb.erased, htypes ▸ habsorb.nodup⟩

theorem typed_ofDeclaration (shape m : Method) : (ofDeclaration shape m).Typed where
  erased := by
    intro t ht
    rcases mem_addNew.1 ht with ht | rfl
    · obtain rfl := List.mem_singleton.1 ht
      exact m.erasure_type
    · exact shape.erasure_type
  nodup := nodup_addNew (List.nodup_singleton _) _

theorem Typed.override (h : node.Typed) (shape m : Method) : (node.override shape m).Typed where
  erased := by
    intro t ht
    rcases mem_addNew.1 ht with ht | rfl
    · rcases mem_addNew.1 ht with ht | rfl
      · exact h.erased t ht
      · exact shape.erasure_type
    · exact m.erasure_type
  nodup := nodup_addNew (nodup_addNew h.nodup _) _

theorem Typed.expose (h : node.Typed) (bridge : Method) : (node.expose bridge).Typed := by
  unfold Node.expose
  split
  · exact ⟨h.erased, h.nodup⟩
  · exact h

end Node

/-- **Nodes stay typed.** -/
theorem Pool.invariant_typed (p : Pool) :
    p.Invariant (fun _ _ node => node.Typed) (fun _ _ node => node.Typed) where
  sibling := fun _ _ h => h
  combine := fun h h' => h.combine p h'
  superclass := fun _ _ h => h
  interfaces := id
  absorb := fun _ h h' => h.absorb h'
  ofDeclaration := fun _ _ _ _ => Node.typed_ofDeclaration _ _
  override := fun _ _ _ _ h => h.override _ _
  expose := fun h => h.expose _

/-! ### The entries of virtual methods -/

namespace Registry

namespace Scene

variable {s : Scene} {es : Entries} {k : MethodIdentity} {e : Entry}

/-- **An entry that stands for no member** is there before the members are offered. The type
initializer aside, members are offered only if their identity has no entry. -/
theorem get?_of_get?_bindMembers
    (h : ((s.nonVirtual es).foldl s.bindMethod es).get? k = some e)
    (hname : k.name ≠ typeInitializerName) (he : e.source ∉ members s.type) :
    es.get? k = some e := by
  cases hold : es.get? k with
  | some old => rwa [get?_bindMembers_of_some s hname hold] at h
  | none =>
    rw [get?_foldl_nonVirtual s es hname] at h
    rcases foldl_bindMethod_cases h with h | ⟨-, hmem | ⟨old, h, -⟩⟩
    · rwa [hold] at h
    · exact absurd (List.mem_filter.1 hmem).1 he
    · rw [hold] at h
      cases h

end Scene

namespace Prepares

variable {r : Registry} {d : Draft} {scope : GraphScope} {p : Pool} {claimable : LatentMatcher}
  {s : Progress} {q : PreparedRegistry} {k : MethodIdentity} {e : Entry}

/-- **The entries of virtual methods** are those of helpers, or families add them. -/
theorem family_or_helper (h : r.Prepares d scope p claimable s q)
    (he : q.entries.get? k = some e) (hv : e.source.isVirtual = true) :
    s.entries.get? k = some e ∨ ∃ node ∈ q.graph.graph.values, node.representative.identity = k ∧
      ((∃ rule, e = .ofRule rule node.representative node.types node.visibility) ∨
        e = .ofBridge node) := by
  have hname : k.name ≠ typeInitializerName := by
    rw [← (h.placed k e he).source, Method.name_identity]
    intro hname
    rw [Method.isVirtual_of_isTypeInitializer (by simp [Method.isTypeInitializer, hname])] at hv
    cases hv
  have hmember : e.source ∉ Scene.members q.draft.decl := by
    intro hmember
    have hkind := (List.mem_filter.1 hmember).2
    rw [hv] at hkind
    cases hkind
  rw [h.entries] at he
  have hfamilies := Scene.get?_of_get?_bindMembers he hname hmember
  rcases Scene.bindNodes_cases hfamilies with hhelper | ⟨node, hnode, hk, hbinding⟩
  · exact .inl hhelper
  · refine .inr ⟨node, hnode, hk, ?_⟩
    rcases Scene.nodeBinding?_eq_some_iff.1 hbinding with ⟨rule, -, he⟩ | ⟨-, -, he⟩
    · exact .inl ⟨rule, he⟩
    · exact .inr he

/-- The types of every entry are erased. -/
theorem erasure_types (h : r.Prepares d scope p claimable s q) (he : q.entries.get? k = some e) :
    ∀ t ∈ e.types, t.erasure = t := by
  have hnone (htypes : e.types = []) : ∀ t ∈ e.types, t.erasure = t := by
    rw [htypes]
    exact List.forall_mem_nil _
  cases hv : e.source.isVirtual with
  | false => exact hnone ((h.placed k e he).types hv)
  | true =>
    rcases h.family_or_helper he hv with hhelper | ⟨node, hnode, -, ⟨rule, rfl⟩ | rfl⟩
    · obtain ⟨handler, m, -, -, rfl⟩ := h.sound.helper k e hhelper
      exact hnone rfl
    · obtain ⟨-, htyped⟩ := p.invariant_typed.exists_of_mem_values scope (h.graph ▸ hnode)
      exact htyped.erased
    · exact hnone rfl

end Prepares

end Registry

/-! ### Families that are bound to a rule -/

/-- The family is bound to the rule: no handler added its representative, which represents no other
family, and the entry of the representative says that the rule has claimed it. -/
structure PreparedRegistry.Binds (q : PreparedRegistry) (d : Draft) (node : Node) (rule : Rule) :
    Prop where
  mem : node ∈ q.graph.graph.values
  alone : ∀ other ∈ q.graph.graph.values, other.representative = node.representative → other = node
  notGained : ¬d.Gains q.draft node.representative.identity
  bound : ∃ e, q.entries.get? node.representative.identity = some e ∧
    e.BelongsTo rule node.representative

instance (e : Entry) (rule : Rule) (m : Method) : Decidable (e.BelongsTo rule m) :=
  decidable_of_iff
    (e.source = m ∧ e.handler = rule.handler ∧ e.attributes = rule.attributes ∧
      e.method = m.change rule.changes ∧ e.isBridge = false)
    ⟨fun h => ⟨h.1, h.2.1, h.2.2.1, h.2.2.2.1, h.2.2.2.2⟩,
      fun h => ⟨h.source, h.handler, h.attributes, h.method, h.isBridge⟩⟩

/-- The only family of a draft to which no handler added anything. -/
theorem PreparedRegistry.binds_of_singleton {q : PreparedRegistry} {d : Draft} {node : Node}
    {rule : Rule} (hnodes : q.graph.graph.values = [node]) (hdecl : q.draft.decl = d.decl)
    (hbound : (q.entries.get? node.representative.identity).any
      (fun e => decide (e.BelongsTo rule node.representative)) = true) : q.Binds d node rule where
  mem := hnodes ▸ List.mem_singleton_self node
  alone other hother _ := List.mem_singleton.1 (hnodes ▸ hother)
  notGained := by
    rw [Draft.Gains, hdecl]
    exact fun hgains => hgains.2 hgains.1
  bound := by
    obtain ⟨e, he, hbelongs⟩ := (Option.any_eq_true _ _).1 hbound
    exact ⟨e, he, of_decide_eq_true hbelongs⟩

/-- **The entry of a family that is bound to a rule** has the types and the visibility of the
family. -/
theorem Registry.Prepares.get?_of_binds {r : Registry} {d : Draft} {scope : GraphScope} {p : Pool}
    {claimable : LatentMatcher} {s : Progress} {q : PreparedRegistry} {node : Node} {rule : Rule}
    (h : r.Prepares d scope p claimable s q) (hb : q.Binds d node rule) :
    q.entries.get? node.representative.identity =
      some (.ofRule rule node.representative node.types node.visibility) := by
  obtain ⟨e, he, hbelongs⟩ := hb.bound
  have hv : e.source.isVirtual = true := by
    rw [hbelongs.source]
    exact scope.isVirtual_of_mem_values p q.draft.decl (h.graph ▸ hb.mem)
  rw [he]
  rcases h.family_or_helper he hv with hhelper | ⟨other, hother, -, ⟨rule', rfl⟩ | rfl⟩
  · have hgains := (h.sound.captured _).1 (Option.isSome_iff_exists.2 ⟨e, hhelper⟩)
    rw [← h.draft] at hgains
    exact absurd hgains hb.notGained
  · obtain rfl := hb.alone other hother hbelongs.source
    have hhandler : rule'.handler = rule.handler := hbelongs.handler
    have hattributes : rule'.attributes = rule.attributes := hbelongs.attributes
    have hmethod : other.representative.change rule'.changes =
        other.representative.change rule.changes := hbelongs.method
    rw [Entry.ofRule, Entry.ofRule, hhandler, hattributes, hmethod]
  · cases hbelongs.isBridge

end ClassForge
