import ClassForge.Proofs.Families

/-!
# What a family is made of

The declarations of a node are compared by identity: a declaration that comes in a second time, by
another way through the hierarchy, is not added again. Up to that, nothing is lost and nothing is
made up. A key has a declaration exactly if the type declares it or a supertype reference leads to
families that have it (`Pool.declared_families`), so the declarations depend on the set of
supertypes and not on their order.

That nothing is lost in a cyclic pool is due to the walk remembering a path and not all names that
it met: a type that is reached by several ways is walked for each of them, and of the ways to it
one goes around its own beginnings.

## Main definitions

* `Node.Declares`, `Declared` — a declaration of that identity is in the node
* `Node.Sound` — the representative, the types and the visibility fit the declarations

## Main results

* `Pool.declared_families` — where declarations come from
* `Pool.invariant_sound` — nodes stay sound
* `GraphScope.graph_is_faithful` — nothing is lost, nothing is made up, and nodes are sound
-/

namespace ClassForge

theorem Visibility.le_trans {u v w : Visibility} (h : u ≤ v) (h' : v ≤ w) : u ≤ w :=
  Nat.le_trans (show u.rank ≤ v.rank from h) h'

theorem mem_foldl_addNew {α : Type} [DecidableEq α] {xs ys : List α} {x : α} :
    x ∈ ys.foldl addNew xs ↔ x ∈ xs ∨ x ∈ ys := by
  induction ys generalizing xs with
  | nil => simp
  | cons y ys ih => rw [List.foldl_cons, ih, mem_addNew, List.mem_cons, or_assoc]

/-! ### Declarations up to identity -/

namespace Node

variable {node other : Node} {m : Method} {i : MethodIdentity}

theorem mem_mergeDeclarations {ds new : List Method} (h : m ∈ mergeDeclarations ds new) :
    m ∈ ds ∨ m ∈ new := by
  induction new generalizing ds with
  | nil => exact .inl h
  | cons d new ih =>
    rcases ih h with h | h
    · dsimp only at h
      split at h
      · exact .inl h
      · rcases List.mem_append.1 h with h | h
        · exact .inl h
        · exact .inr (List.mem_singleton.1 h ▸ List.mem_cons_self)
    · exact .inr (List.mem_cons_of_mem _ h)

theorem mem_mergeDeclarations_of_mem {ds : List Method} (new : List Method) (h : m ∈ ds) :
    m ∈ mergeDeclarations ds new := by
  induction new generalizing ds with
  | nil => exact h
  | cons d new ih =>
    refine ih ?_
    dsimp only
    split
    · exact h
    · exact List.mem_append_left _ h

theorem exists_mem_mergeDeclarations (ds : List Method) {new : List Method} (h : m ∈ new) :
    ∃ d ∈ mergeDeclarations ds new, d.identity = m.identity := by
  induction new generalizing ds with
  | nil => exact absurd h List.not_mem_nil
  | cons d new ih =>
    rcases List.mem_cons.1 h with rfl | h
    · rw [mergeDeclarations, List.foldl_cons]
      split
      · rename_i hany
        obtain ⟨e, he, hid⟩ := List.any_eq_true.1 hany
        exact ⟨e, mem_mergeDeclarations_of_mem new he, of_decide_eq_true hid⟩
      · exact ⟨m, mem_mergeDeclarations_of_mem new (List.mem_append_right _ (.head _)), rfl⟩
    · exact ih _ h

/-- A declaration of that identity is in the family. -/
def Declares (node : Node) (i : MethodIdentity) : Prop := ∃ d ∈ node.declarations, d.identity = i

theorem declares_absorb : (node.absorb other).Declares i ↔ node.Declares i ∨ other.Declares i := by
  constructor
  · rintro ⟨d, hd, rfl⟩
    exact (mem_mergeDeclarations hd).imp (fun h => ⟨d, h, rfl⟩) fun h => ⟨d, h, rfl⟩
  · rintro (⟨d, hd, rfl⟩ | ⟨d, hd, rfl⟩)
    · exact ⟨d, mem_mergeDeclarations_of_mem _ hd, rfl⟩
    · exact exists_mem_mergeDeclarations _ hd

/-- Whichever of two siblings wins, both give what they have. -/
theorem combine_eq_absorb (p : Pool) (node other : Node) :
    (node.combine p other).declarations = (node.absorb other).declarations ∧
      (node.combine p other).types = (node.absorb other).types ∧
        (node.combine p other).visibility = (node.absorb other).visibility := by
  unfold combine
  dsimp only
  split
  · exact ⟨rfl, rfl, rfl⟩
  · split
    · exact ⟨rfl, rfl, rfl⟩
    · exact ⟨rfl, rfl, rfl⟩
    · split <;> exact ⟨rfl, rfl, rfl⟩

theorem declares_combine (p : Pool) :
    (node.combine p other).Declares i ↔ node.Declares i ∨ other.Declares i := by
  rw [← declares_absorb, Declares, (combine_eq_absorb p node other).1, Declares]

@[simp] theorem declarations_expose (node : Node) (bridge : Method) :
    (node.expose bridge).declarations = node.declarations := by
  unfold expose
  split <;> rfl

end Node

/-- The family is there and has a declaration of that identity. -/
def Declared (node? : Option Node) (i : MethodIdentity) : Prop := ∃ node ∈ node?, node.Declares i

namespace Declared

variable {k : FamilyKey} {i : MethodIdentity}

@[simp] theorem none_iff : Declared none i ↔ False := by simp [Declared]

/-- Two sides that come together have the declarations of both. -/
theorem merge_iff {f : Node → Node → Node} {x y : Option Node}
    (hf : ∀ a c, (f a c).Declares i ↔ a.Declares i ∨ c.Declares i) :
    Declared (x.merge f y) i ↔ Declared x i ∨ Declared y i := by
  cases x <;> cases y <;> simp [Declared, hf]

theorem combineAll_iff (p : Pool) (above : TypeRef → Option Node) (rs : List TypeRef)
    (node? : Option Node) :
    Declared (rs.foldl (fun node? r => node?.merge (Node.combine p) (above r)) node?) i ↔
      Declared node? i ∨ ∃ r ∈ rs, Declared (above r) i := by
  induction rs generalizing node? with
  | nil => simp
  | cons r rs ih =>
    rw [List.foldl_cons, ih, merge_iff fun _ _ => Node.declares_combine p, List.exists_mem_cons_iff,
      or_assoc]

theorem declareAt_iff (shape m : Method) (node? : Option Node) :
    Declared (Node.declareAt k shape m node?) i ↔
      Declared node? i ∨ (m.isBridge = false ∧ shape.familyKey = k) ∧ m.identity = i := by
  unfold Node.declareAt
  split
  · rename_i hk
    cases m.isBridge with
    | true => cases node? <;> simp [Declared, Node.Declares]
    | false =>
      cases node? <;>
        simp [Declared, Node.Declares, Node.ofDeclaration, Node.override, hk, or_comm]
  · rename_i hk
    simp [hk]

theorem declareAll_iff (b : Bindings) (ms : List Method) (node? : Option Node) :
    Declared (ms.foldl (fun node? m => Node.declareAt k (m.inShape b) m node?) node?) i ↔
      Declared node? i ∨
        ∃ m ∈ ms, (m.isBridge = false ∧ (m.inShape b).familyKey = k) ∧ m.identity = i := by
  induction ms generalizing node? with
  | nil => simp
  | cons m ms ih =>
    rw [List.foldl_cons, ih, declareAt_iff, List.exists_mem_cons_iff, or_assoc]

end Declared

namespace Pool

variable {p : Pool} {n : Nat} {path : List String} {b : Bindings} {t u : TypeDecl}
  {k : FamilyKey} {m : Method} {i : MethodIdentity}

/-- **Where declarations come from:** from the type, or from a supertype reference. -/
theorem declared_families (ht : t.name ∉ path) :
    Declared ((p.families (n + 1) path b t).get? k) i ↔
      (∃ r ∈ t.supertypes, Declared ((p.familiesAbove n (t.name :: path) b r).get? k) i) ∨
        ∃ m ∈ t.methods.filter (·.isVirtual),
          (m.isBridge = false ∧ (m.inShape b).familyKey = k) ∧ m.identity = i := by
  rw [get?_families ht, Declared.declareAll_iff, inheritedFamily,
    Declared.merge_iff fun _ _ => Node.declares_absorb, Declared.combineAll_iff,
    TypeDecl.supertypes]
  refine or_congr ?_ Iff.rfl
  simp only [Declared.none_iff, false_or, List.mem_append, Option.mem_toList, or_and_right,
    exists_or]
  refine or_congr ?_ Iff.rfl
  cases t.superclass <;> simp

/-- **Nothing is lost.** With enough steps, what a reached type declares is in some family. -/
theorem declared_of_reachesOutside (hn : p.unmet path < n) (ht : p.Knows t)
    (hpath : t.name ∉ path) (h : p.ReachesOutside path t u) (hm : m ∈ u.methods)
    (hv : m.isVirtual = true) (hb : m.isBridge = false) (b : Bindings) :
    ∃ k, Declared ((p.families n path b t).get? k) m.identity := by
  induction n generalizing path b t with
  | zero => omega
  | succ n ih =>
    rcases h.cut ht with rfl | ⟨v, ⟨r, hr, hv'⟩, hname, h⟩
    · exact ⟨_, (declared_families hpath).2
        (.inr ⟨m, List.mem_filter.2 ⟨hm, hv⟩, ⟨hb, rfl⟩, rfl⟩)⟩
    · have hless := unmet_cons_lt ht hpath
      obtain ⟨k, hk⟩ := ih (by omega) (knows_of_resolve? hv') hname h
        (v.bindings (r.substitute b))
      refine ⟨k, (declared_families hpath).2 (.inl ⟨r, hr, ?_⟩)⟩
      rwa [familiesAbove_of_resolve? hv']

/-! ### Sound nodes -/

/-- The method is virtual and no bridge, and the type or one that it reaches declares it. -/
def Inherits (p : Pool) (t : TypeDecl) (m : Method) : Prop :=
  m.isVirtual = true ∧ m.isBridge = false ∧ ∃ u, p.Reaches t u ∧ m ∈ u.methods

theorem Inherits.of_reaches (h : p.Inherits u m) (ht : p.Reaches t u) : p.Inherits t m :=
  let ⟨hv, hb, w, hw, hm⟩ := h
  ⟨hv, hb, w, Relation.ReflTransGen.trans ht hw, hm⟩

end Pool

/-- The node belongs to a family of what the type inherits, and its parts fit together. -/
structure Node.Sound (p : Pool) (t : TypeDecl) (k : FamilyKey) (node : Node) : Prop where
  /-- The representative is one of the declarations. -/
  declared : node.Declares node.representative.identity
  inherited : ∀ m ∈ node.representative :: node.declarations, p.Inherits t m
  name : ∀ m ∈ node.declarations, m.name = k.name
  types : ∀ m ∈ node.declarations, m.type ∈ node.types
  visibility : ∀ m ∈ node.declarations, m.visibility ≤ node.visibility

namespace Node.Sound

variable {p : Pool} {t u : TypeDecl} {k : FamilyKey} {node other : Node} {m : Method}

theorem of_reaches (h : node.Sound p u k) (ht : p.Reaches t u) : node.Sound p t k :=
  { h with inherited := fun m hm => (h.inherited m hm).of_reaches ht }

theorem absorb (h : node.Sound p t k) (h' : other.Sound p t k) :
    (node.absorb other).Sound p t k where
  declared := declares_absorb.2 (.inl h.declared)
  inherited := by
    rw [List.forall_mem_cons]
    refine ⟨h.inherited _ List.mem_cons_self, fun m hm => ?_⟩
    rcases mem_mergeDeclarations hm with hm | hm
    · exact h.inherited m (List.mem_cons_of_mem _ hm)
    · exact h'.inherited m (List.mem_cons_of_mem _ hm)
  name := fun m hm => (mem_mergeDeclarations hm).elim (h.name m) (h'.name m)
  types := fun m hm => mem_foldl_addNew.2 ((mem_mergeDeclarations hm).imp (h.types m) (h'.types m))
  visibility := fun m hm => (mem_mergeDeclarations hm).elim
    (fun hm => Visibility.le_trans (h.visibility m hm) (Visibility.le_widen_left ..))
    (fun hm => Visibility.le_trans (h'.visibility m hm) (Visibility.le_widen_right ..))

theorem combine (h : node.Sound p t k) (h' : other.Sound p t k) :
    (node.combine p other).Sound p t k := by
  obtain ⟨hdeclarations, htypes, hvisibility⟩ := combine_eq_absorb p node other
  have habsorb := h.absorb h'
  have hmembers : ∀ m ∈ (node.absorb other).declarations, p.Inherits t m := fun m hm =>
    habsorb.inherited m (List.mem_cons_of_mem _ hm)
  refine ⟨?_, ?_, ?_, ?_, ?_⟩
  · rw [declares_combine]
    rcases representative_combine p node other with e | e
    · exact .inl (e ▸ h.declared)
    · exact .inr (e ▸ h'.declared)
  · rw [List.forall_mem_cons, hdeclarations]
    refine ⟨?_, hmembers⟩
    rcases representative_combine p node other with e | e
    · exact e ▸ h.inherited _ List.mem_cons_self
    · exact e ▸ h'.inherited _ List.mem_cons_self
  · rw [hdeclarations]
    exact habsorb.name
  · rw [hdeclarations, htypes]
    exact habsorb.types
  · rw [hdeclarations, hvisibility]
    exact habsorb.visibility

theorem ofDeclaration (b : Bindings) (hm : p.Inherits t m) :
    (Node.ofDeclaration (m.inShape b) m).Sound p t (m.inShape b).familyKey where
  declared := ⟨m, List.mem_singleton_self m, rfl⟩
  inherited := by simpa [Node.ofDeclaration] using hm
  name := fun d hd => List.mem_singleton.1 hd ▸ rfl
  types := fun d hd => List.mem_singleton.1 hd ▸ mem_addNew.2 (.inl (List.mem_singleton_self _))
  visibility := fun d hd => List.mem_singleton.1 hd ▸ Nat.le_refl _

theorem override (b : Bindings) (hm : p.Inherits t m)
    (h : node.Sound p t (m.inShape b).familyKey) :
    (node.override (m.inShape b) m).Sound p t (m.inShape b).familyKey where
  declared := ⟨m, List.mem_cons_self, rfl⟩
  inherited := List.forall_mem_cons.2 ⟨hm, List.forall_mem_cons.2
    ⟨hm, fun d hd => h.inherited d (List.mem_cons_of_mem _ hd)⟩⟩
  name := List.forall_mem_cons.2 ⟨rfl, h.name⟩
  types := List.forall_mem_cons.2 ⟨mem_addNew.2 (.inr rfl),
    fun d hd => mem_addNew.2 (.inl (mem_addNew.2 (.inl (h.types d hd))))⟩
  visibility := List.forall_mem_cons.2 ⟨Visibility.le_widen_right ..,
    fun d hd => Visibility.le_trans (h.visibility d hd) (Visibility.le_widen_left ..)⟩

theorem expose (h : node.Sound p t k) (bridge : Method) : (node.expose bridge).Sound p t k := by
  unfold Node.expose
  split
  · exact { h with visibility := fun d hd =>
      Visibility.le_trans (h.visibility d hd) (Visibility.le_widen_left ..) }
  · exact h

end Node.Sound

/-- **Nodes stay sound.** -/
theorem Pool.invariant_sound (p : Pool) :
    p.Invariant (fun t k node => node.Sound p t k) (fun t k node => node.Sound p t k) where
  sibling := fun hr hu h => h.of_reaches (.single (refers_of_interface hr hu))
  combine := fun h h' => h.combine h'
  superclass := fun hr hu h => h.of_reaches (.single (refers_of_superclass hr hu))
  interfaces := id
  absorb := fun _ h h' => h.absorb h'
  ofDeclaration := fun b hm hv hb => .ofDeclaration b ⟨hv, hb, _, .refl, hm⟩
  override := fun b hm hv hb h => h.override b ⟨hv, hb, _, .refl, hm⟩
  expose := fun h => h.expose _

/-- **Graphs are faithful.** Every virtual method of the hierarchy, bridges aside, is among the
declarations of a node. Every declaration of a node is such a method of the type or of a type that
it reaches, has the name of the node, its erased types are among those of the node, and it is not
more visible than the node. And the representative is one of the declarations. -/
theorem GraphScope.graph_is_faithful (p : Pool) (t : TypeDecl) :
    (∀ u ∈ p.hierarchy t, ∀ m ∈ u.methods, m.isVirtual = true → m.isBridge = false →
      ∃ k node, (hierarchy.compile p t).graph.get? k = some node ∧
        ∃ d ∈ node.declarations, d.identity = m.identity) ∧
    ∀ k node, (hierarchy.compile p t).graph.get? k = some node →
      (∃ d ∈ node.declarations, d.identity = node.representative.identity) ∧
        ∀ d ∈ node.declarations,
          (d.isVirtual = true ∧ d.isBridge = false ∧ ∃ u, p.Reaches t u ∧ d ∈ u.methods) ∧
            d.name = k.name ∧ d.type ∈ node.types ∧ d.visibility ≤ node.visibility := by
  refine ⟨fun u hu m hm hv hb => ?_, fun k node hnode => ?_⟩
  · have hroot : ∃ k, Declared ((hierarchy.compile p t).graph.get? k) m.identity := by
      rcases (Pool.reachesOutside_of_mem_hierarchy hu).cases_head with rfl | ⟨v, hv', h⟩
      · exact ⟨_, (Pool.declared_families List.not_mem_nil).2
          (.inr ⟨m, List.mem_filter.2 ⟨hm, hv⟩, ⟨hb, rfl⟩, rfl⟩)⟩
      · obtain ⟨⟨r, hr, hres⟩, hname⟩ := hv'
        have hless := p.unmet_le [t.name]
        obtain ⟨k, hk⟩ := Pool.declared_of_reachesOutside (n := p.size + 1) (by omega)
          (Pool.knows_of_resolve? hres) hname h hm hv hb (v.bindings (r.substitute .empty))
        refine ⟨k, (Pool.declared_families List.not_mem_nil).2 (.inl ⟨r, hr, ?_⟩)⟩
        rwa [Pool.familiesAbove_of_resolve? hres]
    obtain ⟨k, node, hnode, hdeclared⟩ := hroot
    exact ⟨k, node, hnode, hdeclared⟩
  · have hsound := p.invariant_sound.families _ _ _ t k node hnode
    exact ⟨hsound.declared, fun d hd => ⟨hsound.inherited d (List.mem_cons_of_mem _ hd),
      hsound.name d hd, hsound.types d hd, hsound.visibility d hd⟩⟩

end ClassForge
