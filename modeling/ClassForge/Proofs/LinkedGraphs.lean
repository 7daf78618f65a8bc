import ClassForge.Proofs.Conflicts

/-!
# What a type keeps of its superclass

A super call is looked up among the families of the superclass, and what it finds there has to fit
the family that the type itself has under the same key. The two graphs come from two walks, which
bind type variables and keep paths of their own. Still the first walk finds on its way exactly what
the second one finds (`Pool.get?_compile`): the superclass is walked with one step less, but with
enough of them, and with the same path.

What comes after it only adds. Interfaces add to a family and never replace its representative; a
method of the type adds itself and becomes the representative; a bridge of the type adds nothing but
visibility. So nothing of a family of the superclass is lost, and only a method of the type can
take its place.

## Main definitions

* `Node.Covers` — the declarations, types and visibility of one node are among those of another

## Main results

* `Node.exists_declareAll` — what the methods of a type leave of a node
* `GraphScope.superclass_families_persist` — the families of the superclass in the graph of a type
-/

namespace ClassForge

namespace Node

/-- The node has all declarations and types of `c`, and is at least as visible. -/
structure Covers (node c : Node) : Prop where
  declarations : c.declarations ⊆ node.declarations
  types : c.types ⊆ node.types
  visibility : c.visibility ≤ node.visibility

variable {k : FamilyKey} {node c d : Node} {m shape : Method}

theorem Covers.refl (node : Node) : node.Covers node where
  declarations := List.Subset.refl _
  types := List.Subset.refl _
  visibility := Nat.le_refl _

theorem Covers.trans (h : node.Covers c) (h' : c.Covers d) : node.Covers d where
  declarations := List.Subset.trans h'.declarations h.declarations
  types := List.Subset.trans h'.types h.types
  visibility := Visibility.le_trans h'.visibility h.visibility

/-! ### Steps only add -/

theorem covers_absorb (node other : Node) : (node.absorb other).Covers node where
  declarations := fun _ hm => mem_mergeDeclarations_of_mem _ hm
  types := fun _ ht => mem_foldl_addNew.2 (.inl ht)
  visibility := Visibility.le_widen_left ..

theorem covers_override (node : Node) (shape m : Method) : (node.override shape m).Covers node where
  declarations := List.subset_cons_self ..
  types := fun _ ht => mem_addNew.2 (.inl (mem_addNew.2 (.inl ht)))
  visibility := Visibility.le_widen_left ..

theorem covers_expose (node : Node) (bridge : Method) : (node.expose bridge).Covers node := by
  unfold expose
  split
  · exact ⟨List.Subset.refl _, List.Subset.refl _, Visibility.le_widen_left ..⟩
  · exact .refl node

/-- **One method** of the type leaves a node in its place, and its representative too unless it is a
declaration of the family. -/
theorem exists_declareAt (k : FamilyKey) (shape m : Method) (node : Node) :
    ∃ node', declareAt k shape m (some node) = some node' ∧ node'.Covers node ∧
      ((m.isBridge = false → shape.familyKey ≠ k) →
        node'.representative = node.representative) := by
  unfold declareAt
  by_cases hk : shape.familyKey = k
  · cases hb : m.isBridge with
    | true =>
      refine ⟨node.expose m, by simp [hk], covers_expose node m, ?_⟩
      intro _
      exact representative_expose node m
    | false =>
      refine ⟨node.override shape m, by simp [hk], covers_override node shape m, ?_⟩
      intro hne
      exact absurd hk (hne rfl)
  · refine ⟨node, by simp [hk], .refl node, ?_⟩
    intro _
    rfl

/-- **All methods** of the type leave a node in its place, and its representative too unless one of
them is a declaration of the family. -/
theorem exists_declareAll (k : FamilyKey) (shape : Method → Method) (ms : List Method)
    (node : Node) :
    ∃ node', ms.foldl (fun node? m => declareAt k (shape m) m node?) (some node) = some node' ∧
      node'.Covers node ∧
        ((∀ m ∈ ms, m.isBridge = false → (shape m).familyKey ≠ k) →
          node'.representative = node.representative) := by
  induction ms generalizing node with
  | nil => exact ⟨node, rfl, .refl node, fun _ => rfl⟩
  | cons m ms ih =>
    obtain ⟨next, hnext, hcovers, hrep⟩ := exists_declareAt k (shape m) m node
    obtain ⟨last, hlast, hcovers', hrep'⟩ := ih next
    refine ⟨last, ?_, hcovers'.trans hcovers, ?_⟩
    · rw [List.foldl_cons, hnext, hlast]
    · intro hms
      rw [List.forall_mem_cons] at hms
      rw [hrep' hms.2, hrep hms.1]

end Node

namespace GraphScope

/-- **The families of the superclass persist.** The graph of a type has each of them under the same
key, with all its declarations and types and at least as visible, and with the same representative
unless the type itself declares a method of the family. -/
theorem superclass_families_persist {p : Pool} {t : TypeDecl} {k : FamilyKey} {c : Node}
    (h : (hierarchy.compile p t).superGraph.get? k = some c) :
    ∃ node, (hierarchy.compile p t).graph.get? k = some node ∧
      c.declarations ⊆ node.declarations ∧ c.types ⊆ node.types ∧
        c.visibility ≤ node.visibility ∧
          ((∀ m ∈ t.methods, m.isVirtual = true → m.isBridge = false → m.familyKey ≠ k) →
            node.representative = c.representative) := by
  -- What the interfaces of the type bring in lies beneath the family of the superclass.
  obtain ⟨inherited, hinherited, hcovers, hrep⟩ : ∃ inherited,
      (some c).merge Node.absorb (Node.combineAll p (p.siblings t k)) = some inherited ∧
        inherited.Covers c ∧ inherited.representative = c.representative := by
    cases Node.combineAll p (p.siblings t k) with
    | none => exact ⟨c, rfl, .refl c, rfl⟩
    | some other => exact ⟨c.absorb other, rfl, Node.covers_absorb c other, rfl⟩
  obtain ⟨node, hnode, hcovers', hrep'⟩ :=
    Node.exists_declareAll k id (t.methods.filter (·.isVirtual)) inherited
  have hall := hcovers'.trans hcovers
  refine ⟨node, ?_, hall.declarations, hall.types, hall.visibility, ?_⟩
  · rw [Pool.get?_compile, h, hinherited]
    exact hnode
  · intro hown
    rw [hrep', hrep]
    intro m hm
    obtain ⟨hm, hv⟩ := List.mem_filter.1 hm
    exact hown m hm hv

/-- A class whose superclass has `put` for texts from a generic class. An interface has the same
method for itself, and a bridge of the class exposes it. -/
theorem superclass_families_persist_generic :
    let put (owner : String) (type : TypeRef) : Method :=
      { owner, name := "put", modifiers := .of [.accPublic], parameters := [{ type }] }
    let text : TypeRef := .named "java.lang.String"
    let base : TypeDecl :=
      { name := "a.Base", modifiers := .of [.accPublic], superclass := none
        typeVariables := [{ symbol := "T" }], methods := [put "a.Base" (.typeVar "T" .object)] }
    let log : TypeDecl :=
      { name := "a.Log", modifiers := .of [.accPublic, .accInterface, .accAbstract]
        superclass := none, methods := [put "a.Log" text] }
    let p := Pool.empty.registerAll [base, log]
    let t : TypeDecl :=
      { name := "a.Sub", modifiers := .of [.accPublic]
        superclass := some (.parameterized "a.Base" [text]), interfaces := [.named "a.Log"]
        methods := [{ put "a.Sub" text with modifiers := .of [.accPublic, .accBridge] }] }
    ∃ c node, (hierarchy.compile p t).superGraph.get? ⟨"put", [text]⟩ = some c ∧
      (hierarchy.compile p t).graph.get? ⟨"put", [text]⟩ = some node ∧
        c.types = [⟨.void, [.object]⟩, ⟨.void, [text]⟩] ∧ c.types ⊆ node.types ∧
          node.representative = put "a.Base" (.typeVar "T" .object) := by
  intro put text base log p t
  have hsome : ((hierarchy.compile p t).superGraph.get? ⟨"put", [text]⟩).isSome = true := by
    decide +kernel
  have hsuper : ∀ c ∈ (hierarchy.compile p t).superGraph.get? ⟨"put", [text]⟩,
      c.types = [⟨.void, [.object]⟩, ⟨.void, [text]⟩] ∧
        c.representative = put "a.Base" (.typeVar "T" .object) := by decide +kernel
  obtain ⟨c, hc⟩ := Option.isSome_iff_exists.1 hsome
  obtain ⟨htypes, hrep⟩ := hsuper c hc
  obtain ⟨node, hnode, -, hsub, -, hsame⟩ := superclass_families_persist hc
  refine ⟨c, node, hc, hnode, htypes, hsub, ?_⟩
  rw [hsame (by decide +kernel), hrep]

end GraphScope

end ClassForge
